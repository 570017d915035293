import HamZaboon.Library.LineStore
import HamZaboon.Precard.Glosses
import HamZaboon.Precard.Pipeline

/-! # The drop log

The section that `_stage_summary` appends to `dropped.log`: a header, a line for each key that
is dropped, failed without an entry or fell back, and a second header with a line for each key
under quarantine.  The entry band of a dropped key stands at the end of its line, without
brackets and line breaks; the keys and the reasons stand there as they are.

So a line break in a key or a reason splits its line, and a reason that opens the suffix or
ends in one of its own is read as the band (`dropLog_exact_iff`).
-/

namespace HamZaboon
open Library

def entryBandUnknown : String := "?"

def bandBreaks : List Char := ['[', ']', '\r', '\n']

/-- The bands of the keys when they were sampled. -/
abbrev EntryBands := Option (List (String × String))

def bandOf (bands : EntryBands) (key : String) : Option String :=
  (bands.bind (·.lookup key)).filter (· ≠ "")

def entryTag : List Char := ['[', 'e', 'n', 't', 'r', 'y', '=']

inductive LogLine
  | header (text : String)
  | dropped (key reason : String)
  | fallback (key : String)
  | quarantined (key gate : String)

/-- The bucket of a stage; its keys are texts. -/
structure SummaryState where
  done : Dict
  failed : List String
  keys : (done.map Prod.fst).Nodup

section Text
variable (py : GlossText)

def sanitizeEntryBand (raw : String) : String :=
  let cleaned := py.upper (py.strip (String.ofList (raw.toList.filter (· ∉ bandBreaks))))
  if cleaned = "" then entryBandUnknown else cleaned

/-- The suffix of a drop line. -/
def entrySuffix (band : Option String) : List Char :=
  match band with
  | some band => ' ' :: entryTag ++ (sanitizeEntryBand py band).toList ++ [']']
  | none => []

def formatDropLine (key reason : String) (bands : EntryBands) : List Char :=
  (key ++ ": " ++ reason).toList ++ entrySuffix py (bandOf bands key)

/-- `\[entry=([^\]]+)\]\s*$` at the beginning of a text. -/
def bandHere (s : List Char) : Option (List Char) :=
  Pattern.lit (fun a b => a = b) entryTag (fun s =>
    match s.dropWhile (· ≠ ']') with
    | _ :: rest =>
      let band := s.takeWhile (· ≠ ']')
      if band ≠ [] ∧ rest.all py.isSpace = true then some band else none
    | [] => none) s

def parseDropEntryBand (line : List Char) : Option String :=
  (Pattern.search (fun _ => bandHere py) none line).bind fun band =>
    let band := py.strip (String.ofList band)
    if band = "" then none else some band

def LogLine.text (bands : EntryBands) : LogLine → List Char
  | header text => text.toList
  | dropped key reason => formatDropLine py key reason bands
  | fallback key => (key ++ ": s1-fallback").toList
  | quarantined key gate => (key ++ ": quarantine-" ++ gate).toList

namespace SummaryState

/-- What the summary says of an entry, unless it is kept. -/
def detail (key : String) : JsonValue → Option LogLine
  | .obj verdict =>
    let kept := (verdict.lookup "kept").elim true JsonValue.truthy
    if kept && !(Dict.get verdict "dropped").truthy then
      if "s1-".toList <+: (py.pyStr ((verdict.lookup "model").getD (.str ""))).toList then
        some (.fallback key)
      else none
    else
      let reason := if (Dict.get verdict "reason").truthy then Dict.get verdict "reason"
        else if (Dict.get verdict "dropped").truthy then Dict.get verdict "dropped" else .str ""
      some (.dropped key (py.pyStr reason))
  | _ => none

def quarantine (key : String) : JsonValue → Option LogLine
  | .obj verdict =>
    let gate := Dict.get verdict "quarantine"
    if gate.truthy then some (.quarantined key (py.pyStr gate)) else none
  | _ => none

variable (s : SummaryState)

/-- The failed keys without an entry. -/
def failedOnly : List String := s.failed.filter (· ∉ s.done.map Prod.fst)

def details : List LogLine :=
  s.done.filterMap (fun e => detail py e.1 e.2) ++
    s.failedOnly.map (LogLine.dropped · "failed-no-entry")

/-- `quarantined`. -/
def review : List LogLine := s.done.filterMap fun e => quarantine py e.1 e.2

def log (stage : Stage) : List LogLine :=
  if s.details py = [] ∧ s.review py = [] then []
  else .header ("=== " ++ stage.id ++ " drops ===") :: s.details py ++
    if s.review py = [] then []
    else .header ("=== " ++ stage.id ++ " quarantine (kept, review) ===") :: s.review py

/-- What `_stage_summary` appends to `dropped.log`. -/
def stageSummary (stage : Stage) (bands : EntryBands) : List Char :=
  joinLines ((s.log py stage).map (LogLine.text py bands))

end SummaryState
end Text

/-! ## The band at the end of a line -/

/-- What the round trip needs of `str.isspace` and `str.upper`. -/
structure BandLaws (py : GlossText) : Prop where
  opening : py.isSpace '[' = false
  closing : py.isSpace ']' = false
  unknown : py.isSpace '?' = false
  upper_breaks : ∀ (s : String), ∀ c ∈ bandBreaks, c ∈ (py.upper s).toList → c ∈ s.toList
  upper_strip : ∀ s : String, py.strip s = s → py.strip (py.upper s) = py.upper s

/-- The text opens a suffix and does not close it. -/
def OpensBand (text : List Char) : Prop :=
  ∃ before inside, text = before ++ entryTag ++ inside ∧ ']' ∉ inside

/-- The text ends in a suffix that is not blank. -/
def EndsInBand (py : GlossText) (text : List Char) : Prop :=
  ∃ before inside after, text = before ++ entryTag ++ inside ++ ']' :: after ∧ ']' ∉ inside ∧
    (∃ c ∈ inside, py.isSpace c = false) ∧ ∀ c ∈ after, py.isSpace c = true

section Parse
variable {py : GlossText} {s band : List Char}

theorem not_opensBand (h : '[' ∉ s) : ¬ OpensBand s := by
  rintro ⟨before, inside, rfl, -⟩
  exact h (by simp [entryTag])

theorem not_endsInBand (h : '[' ∉ s) : ¬ EndsInBand py s := by
  rintro ⟨before, inside, after, rfl, -⟩
  exact h (by simp [entryTag])

theorem bandHere_eq_some : bandHere py s = some band ↔
    ∃ after, s = entryTag ++ band ++ ']' :: after ∧ band ≠ [] ∧ ']' ∉ band ∧
      ∀ c ∈ after, py.isSpace c = true := by
  rw [bandHere, Pattern.lit_eq_some]
  constructor
  · rintro ⟨r, rfl, hr⟩
    split at hr
    · rename_i c rest hdrop
      simp only at hr
      split at hr
      · rename_i hband
        obtain rfl := Option.some.inj hr
        have hc : c = ']' := by
          have hne : r.dropWhile (fun x => decide (x ≠ ']')) ≠ [] := hdrop ▸ List.cons_ne_nil c rest
          have hhead := List.head_dropWhile_not _ hne
          simp only [hdrop, List.head_cons] at hhead
          simpa using hhead
        subst hc
        have hr := List.takeWhile_append_dropWhile (p := fun d => decide (d ≠ ']')) (l := r)
        rw [hdrop] at hr
        refine ⟨rest, ?_, hband.1, fun hmem => ?_, List.all_eq_true.mp hband.2⟩
        · rw [List.append_assoc, hr]
        · simpa using List.mem_takeWhile_imp hmem
      · cases hr
    · cases hr
  · rintro ⟨after, rfl, hne, hclose, hspace⟩
    refine ⟨band ++ ']' :: after, by rw [List.append_assoc], ?_⟩
    have hall : ∀ c ∈ band, (decide (c ≠ ']')) = true := fun c hc => by
      have hne : c ≠ ']' := fun h => hclose (h ▸ hc)
      simp [hne]
    have htake : (band ++ ']' :: after).takeWhile (fun c => decide (c ≠ ']')) = band := by
      rw [List.takeWhile_append_of_pos hall]
      simp
    have hdrop : (band ++ ']' :: after).dropWhile (fun c => decide (c ≠ ']')) = ']' :: after := by
      rw [List.dropWhile_append_of_pos hall]
      simp
    rw [hdrop]
    dsimp only
    rw [htake, if_pos ⟨hne, List.all_eq_true.mpr hspace⟩]

theorem append_bracket_inj (hlaws : BandLaws py) {l l' : List Char} (after after' : List Char)
    (heq : l ++ ']' :: after = l' ++ ']' :: after') (hafter : ∀ c ∈ after, py.isSpace c = true)
    (hafter' : ∀ c ∈ after', py.isSpace c = true) : l = l' := by
  have hnot : ∀ w : List Char, (∀ c ∈ w, py.isSpace c = true) → ']' ∉ w := fun w hw hmem =>
    Bool.noConfusion (hlaws.closing.symm.trans (hw ']' hmem))
  have hnone : ∀ x w w' : List Char, (∀ c ∈ w, py.isSpace c = true) → ']' :: w = x ++ ']' :: w' →
      x = [] := by
    intro x w w' hw h
    cases x with
    | nil => rfl
    | cons c x =>
      obtain ⟨-, rfl⟩ := List.cons.inj h
      exact absurd (List.mem_append_right x List.mem_cons_self) (hnot _ hw)
  rcases List.append_eq_append_iff.mp heq with ⟨x, rfl, hx⟩ | ⟨x, rfl, hx⟩
  · rw [hnone x _ _ hafter hx, List.append_nil]
  · rw [hnone x _ _ hafter' hx, List.append_nil]

theorem bandHere_suffix (hlaws : BandLaws py) {text inside before rest : List Char}
    (hopen : '[' ∉ inside)
    (heq : text ++ (' ' :: entryTag ++ inside ++ [']']) = before ++ rest)
    (hrest : bandHere py rest = some band) :
    (before = text ++ [' '] ∧ band = inside) ∨ ∃ x, text = before ++ entryTag ++ x ∧ ']' ∉ x ∧
      band = x ++ (' ' :: entryTag ++ inside) := by
  obtain ⟨after, rfl, -, hclose, hafter⟩ := bandHere_eq_some.mp hrest
  have hcut : text ++ (' ' :: entryTag ++ inside) = before ++ (entryTag ++ band) := by
    refine append_bracket_inj hlaws [] after ?_ (List.forall_mem_nil _) hafter
    simpa using heq
  rcases List.append_eq_append_iff.mp hcut with ⟨x, rfl, hx⟩ | ⟨x, rfl, hx⟩
  · refine .inl ?_
    cases x with
    | nil => cases hx
    | cons c x =>
      obtain ⟨rfl, htail⟩ := List.cons.inj hx
      cases x with
      | nil => exact ⟨rfl, (List.append_cancel_left htail).symm⟩
      | cons c x =>
        -- a bracket behind the first of the suffix
        have hx : '[' :: (entryTag.tail ++ inside) = c :: (x ++ (entryTag ++ band)) := htail
        have hmem : '[' ∈ entryTag.tail ++ inside := by
          rw [(List.cons.inj hx).2]
          simp [entryTag]
        rcases List.mem_append.mp hmem with hmem | hmem
        · exact absurd hmem (by decide)
        · exact absurd hmem hopen
  · refine .inr ?_
    rcases List.append_eq_append_iff.mp hx with ⟨y, rfl, hy⟩ | ⟨y, htag, hy⟩
    · refine ⟨y, by rw [List.append_assoc], fun hmem => hclose ?_, hy⟩
      rw [hy]
      exact List.mem_append_left _ hmem
    · cases y with
      | nil =>
        rw [List.append_nil] at htag
        refine ⟨[], by simp [htag], List.not_mem_nil, ?_⟩
        rw [List.nil_append] at hy ⊢
        exact hy.symm
      | cons c y =>
        obtain ⟨rfl, -⟩ := List.cons.inj hy
        have hmem : ' ' ∈ entryTag := by
          rw [htag]
          simp
        exact absurd hmem (by decide)

theorem strip_eq_of_trim {b : List Char} (h : trim py.isSpace b = b) :
    py.strip (String.ofList b) = String.ofList b := by
  rw [UnicodeLib.strip, String.toList_ofList, h]

theorem mem_strip {c : Char} (hc : py.isSpace c = false) (hmem : c ∈ s) :
    c ∈ (py.strip (String.ofList s)).toList := by
  rw [UnicodeLib.strip, String.toList_ofList, String.toList_ofList]
  exact mem_trim hc hmem

/-- **The suffix of a line is read back exactly when nothing before it opens one.** -/
theorem parseDropEntryBand_suffix (hlaws : BandLaws py) {text : List Char} {inside : String}
    (hopen : '[' ∉ inside.toList) (hclose : ']' ∉ inside.toList) (hne : inside ≠ "")
    (hstrip : py.strip inside = inside) :
    parseDropEntryBand py (text ++ (' ' :: entryTag ++ inside.toList ++ [']'])) = some inside ↔
      ¬ OpensBand text := by
  have hlist : inside.toList ≠ [] := fun h => hne (String.toList_eq_nil_iff.mp h)
  have hplace : ∀ x : List Char, ']' ∉ x →
      bandHere py (entryTag ++ x ++ (' ' :: entryTag ++ inside.toList ++ [']'])) =
        some (x ++ (' ' :: entryTag ++ inside.toList)) := by
    intro x hx
    refine bandHere_eq_some.mpr ⟨[], by simp, by simp, ?_, nofun⟩
    simp [hx, hclose, entryTag]
  have hsuffix : bandHere py (entryTag ++ inside.toList ++ [']']) = some inside.toList :=
    bandHere_eq_some.mpr ⟨[], rfl, hlist, hclose, nofun⟩
  unfold parseDropEntryBand
  cases hfind : Pattern.search (fun _ => bandHere py) none
      (text ++ (' ' :: entryTag ++ inside.toList ++ [']'])) with
  | none =>
    have hnone := Pattern.search_eq_none hfind (a := text ++ [' '])
      (r := entryTag ++ inside.toList ++ [']']) (by simp)
    rw [hsuffix] at hnone
    cases hnone
  | some band =>
    obtain ⟨before, rest, heq, hmatch, hleft⟩ := Pattern.search_eq_some hfind
    rcases bandHere_suffix hlaws hopen heq hmatch with ⟨rfl, rfl⟩ | ⟨x, rfl, hx, rfl⟩
    · refine iff_of_true ?_ ?_
      · simp [hstrip, hne]
      · -- a place further left would be found first
        rintro ⟨before, x, rfl, hx⟩
        have hle := hleft before _ (by rw [List.append_assoc, List.append_assoc, ← List.append_assoc _ x])
          (by rw [hplace x hx]; rfl)
        simp at hle
    · refine iff_of_false (fun h => ?_) (fun h => h ⟨before, x, rfl, hx⟩)
      have hmem := mem_strip hlaws.opening (s := x ++ (' ' :: entryTag ++ inside.toList)) (by simp [entryTag])
      rw [Option.bind_some] at h
      dsimp only at h
      split at h
      · cases h
      · rw [Option.some.inj h] at hmem
        exact hopen hmem

theorem opening_mem_of_left (hlaws : BandLaws py) {before before' b b' rest rest' : List Char}
    (heq : before ++ rest = before' ++ rest') (hb : bandHere py rest = some b)
    (hb' : bandHere py rest' = some b') (hle : before.length ≤ before'.length) :
    b = b' ∨ '[' ∈ b := by
  obtain ⟨after, rfl, -, -, hafter⟩ := bandHere_eq_some.mp hb
  obtain ⟨after', rfl, -, -, hafter'⟩ := bandHere_eq_some.mp hb'
  have hcut : before ++ (entryTag ++ b) = before' ++ (entryTag ++ b') := by
    refine append_bracket_inj hlaws after after' ?_ hafter hafter'
    simpa using heq
  rcases List.append_eq_append_iff.mp hcut with ⟨x, rfl, hx⟩ | ⟨x, rfl, hx⟩
  · cases x with
    | nil => exact .inl (List.append_cancel_left hx)
    | cons c x =>
      have hx : '[' :: (entryTag.tail ++ b) = c :: (x ++ (entryTag ++ b')) := hx
      have hmem : '[' ∈ entryTag.tail ++ b := by
        rw [(List.cons.inj hx).2]
        simp [entryTag]
      exact .inr ((List.mem_append.mp hmem).resolve_left (by decide))
  · have hnil : x = [] := List.eq_nil_of_length_eq_zero (by
      rw [List.length_append] at hle
      omega)
    subst hnil
    exact .inl (List.append_cancel_left hx).symm

/-- **A text without a suffix of its own has no band.** -/
theorem parseDropEntryBand_eq_none_iff (hlaws : BandLaws py) :
    parseDropEntryBand py s = none ↔ ¬ EndsInBand py s := by
  have hblank : ∀ b : List Char, py.strip (String.ofList b) = "" ↔ ∀ c ∈ b, py.isSpace c = true := by
    intro b
    rw [UnicodeLib.strip, String.toList_ofList, ← trim_eq_nil_iff, ← String.toList_eq_nil_iff,
      String.toList_ofList]
  unfold parseDropEntryBand
  cases hfind : Pattern.search (fun _ => bandHere py) none s with
  | none =>
    refine iff_of_true rfl ?_
    rintro ⟨before, inside, after, heq, hclose, ⟨c, hc, -⟩, hafter⟩
    have hmatch : bandHere py (entryTag ++ inside ++ ']' :: after) = some inside :=
      bandHere_eq_some.mpr ⟨after, rfl, List.ne_nil_of_mem hc, hclose, hafter⟩
    rw [Pattern.search_eq_none hfind (a := before) (by simp [heq])] at hmatch
    cases hmatch
  | some b =>
    obtain ⟨before, rest, heq, hmatch, hleft⟩ := Pattern.search_eq_some hfind
    have hnone : ((some b).bind fun band =>
        let band := py.strip (String.ofList band)
        if band = "" then none else some band) = none ↔ ∀ c ∈ b, py.isSpace c = true := by
      rw [← hblank]
      simp
    rw [hnone]
    constructor
    · rintro hspace ⟨before', inside, after, heq', hclose, ⟨c, hc, hnospace⟩, hafter⟩
      have hmatch' : bandHere py (entryTag ++ inside ++ ']' :: after) = some inside :=
        bandHere_eq_some.mpr ⟨after, rfl, List.ne_nil_of_mem hc, hclose, hafter⟩
      have hplace : s = before' ++ (entryTag ++ inside ++ ']' :: after) := by simp [heq']
      have hle := hleft before' _ hplace (by rw [hmatch']; rfl)
      rcases opening_mem_of_left hlaws (heq.symm.trans hplace) hmatch hmatch' hle with rfl | hmem
      · rw [hspace c hc] at hnospace
        cases hnospace
      · exact Bool.noConfusion (hlaws.opening.symm.trans (hspace '[' hmem))
    · intro hends c hc
      obtain ⟨after, rfl, -, hclose, hafter⟩ := bandHere_eq_some.mp hmatch
      by_contra hnospace
      refine hends ⟨before, b, after, by simp [heq], hclose, ⟨c, hc, ?_⟩, hafter⟩
      exact eq_false_of_ne_true hnospace

end Parse

/-! ## The band of a line -/

section Band
variable {py : GlossText}

theorem sanitizeEntryBand_facts (hlaws : BandLaws py) (raw : String) :
    sanitizeEntryBand py raw ≠ "" ∧ (∀ c ∈ bandBreaks, c ∉ (sanitizeEntryBand py raw).toList) ∧
      py.strip (sanitizeEntryBand py raw) = sanitizeEntryBand py raw := by
  unfold sanitizeEntryBand
  simp only
  split
  · have hunknown : bandBreaks.all (· ∉ entryBandUnknown.toList) = true := by decide
    refine ⟨by decide, fun c hc => of_decide_eq_true (List.all_eq_true.mp hunknown c hc),
      strip_eq_of_trim (trim_eq_self hlaws.unknown ?_)⟩
    simpa using hlaws.unknown
  · rename_i hne
    refine ⟨hne, fun c hc hmem => ?_, hlaws.upper_strip _ (py.strip_strip _)⟩
    have hraw := hlaws.upper_breaks _ c hc hmem
    rw [UnicodeLib.strip, String.toList_ofList, String.toList_ofList] at hraw
    have hkept := mem_of_mem_trim hraw
    simp [hc] at hkept

/-- The line is read as it should be: it begins with its key, and a dropped key has its band. -/
def LogLine.ReadsAs (py : GlossText) (bands : EntryBands) : LogLine → List Char → Prop
  | header text, line => line = text.toList
  | dropped key _, line => key.toList <+: line ∧
      parseDropEntryBand py line = (bandOf bands key).map (sanitizeEntryBand py)
  | fallback key, line => key.toList <+: line
  | quarantined key _, line => key.toList <+: line

def LogLine.key : LogLine → String
  | header _ => ""
  | dropped key _ => key
  | fallback key => key
  | quarantined key _ => key

/-- The text of the line has no line break, and of a dropped key nothing in it passes for
another band. -/
structure LogLine.Safe (ends : LineEnds) (py : GlossText) (bands : EntryBands) (l : LogLine) :
    Prop where
  unbroken : ∀ c ∈ readLine (l.text py bands), ends.isEnd c = false
  suffixed : ∀ key reason band, l = .dropped key reason → bandOf bands key = some band →
    ¬ OpensBand (key ++ ": " ++ reason).toList
  bare : ∀ key reason, l = .dropped key reason → bandOf bands key = none →
    ¬ EndsInBand py (readLine (key ++ ": " ++ reason).toList)

theorem prefix_readLine {a b : List Char} (hb : b ≠ []) : a <+: readLine (a ++ b) := by
  unfold readLine
  split
  · rw [List.dropLast_append_of_ne_nil hb]
    exact List.prefix_append a _
  · exact List.prefix_append a b

theorem readsAs_dropped_iff (hlaws : BandLaws py) {bands : EntryBands} {key reason : String} :
    LogLine.ReadsAs py bands (.dropped key reason) (readLine (formatDropLine py key reason bands)) ↔
      (∀ band, bandOf bands key = some band → ¬ OpensBand (key ++ ": " ++ reason).toList) ∧
        (bandOf bands key = none → ¬ EndsInBand py (readLine (key ++ ": " ++ reason).toList)) := by
  have hprefix : key.toList <+: readLine (formatDropLine py key reason bands) := by
    have htext : formatDropLine py key reason bands =
        key.toList ++ (": ".toList ++ reason.toList ++ entrySuffix py (bandOf bands key)) := by
      simp [formatDropLine]
    rw [htext]
    exact prefix_readLine (by simp)
  rw [LogLine.ReadsAs, and_iff_right hprefix, formatDropLine]
  cases hband : bandOf bands key with
  | none =>
    simp only [entrySuffix, List.append_nil, Option.map_none, reduceCtorEq, false_imp_iff,
      forall_const, true_and]
    exact parseDropEntryBand_eq_none_iff hlaws
  | some band =>
    obtain ⟨hne, hbreaks, hstrip⟩ := sanitizeEntryBand_facts hlaws band
    have hend : ∀ text : List Char, readLine (text ++ entrySuffix py (some band)) =
        text ++ entrySuffix py (some band) := fun text => by
      rw [entrySuffix, ← List.append_assoc text]
      exact readLine_concat (by decide)
    rw [hend]
    simp only [Option.some.injEq, forall_eq', reduceCtorEq, false_imp_iff, and_true, Option.map_some]
    exact parseDropEntryBand_suffix hlaws (hbreaks '[' (by decide)) (hbreaks ']' (by decide)) hne hstrip

theorem readsAs_iff (hlaws : BandLaws py) {ends : LineEnds} {bands : EntryBands} {l : LogLine}
    (hl : ∀ text, l ≠ .header text) :
    ((∀ c ∈ readLine (l.text py bands), ends.isEnd c = false) ∧
      l.ReadsAs py bands (readLine (l.text py bands))) ↔ l.Safe ends py bands := by
  cases l with
  | header text => exact absurd rfl (hl text)
  | dropped key reason =>
    rw [LogLine.text, readsAs_dropped_iff hlaws]
    constructor
    · rintro ⟨hclean, hsome, hnone⟩
      refine ⟨hclean, ?_, ?_⟩
      · rintro _ _ band ⟨⟩ hband
        exact hsome band hband
      · rintro _ _ ⟨⟩ hband
        exact hnone hband
    · exact fun h => ⟨h.unbroken, fun band hband => h.suffixed key reason band rfl hband,
        fun hband => h.bare key reason rfl hband⟩
  | fallback key =>
    have hreads : LogLine.ReadsAs py bands (.fallback key)
        (readLine (LogLine.text py bands (.fallback key))) := by
      rw [LogLine.ReadsAs, LogLine.text, String.toList_append]
      exact prefix_readLine (by decide)
    exact ⟨fun h => ⟨h.1, nofun, nofun⟩, fun h => ⟨h.unbroken, hreads⟩⟩
  | quarantined key gate =>
    have hreads : LogLine.ReadsAs py bands (.quarantined key gate)
        (readLine (LogLine.text py bands (.quarantined key gate))) := by
      rw [LogLine.ReadsAs, LogLine.text, String.append_assoc, String.toList_append]
      exact prefix_readLine (by simp)
    exact ⟨fun h => ⟨h.1, nofun, nofun⟩, fun h => ⟨h.unbroken, hreads⟩⟩

end Band

/-! ## The section -/

section Section
variable {py : GlossText} (s : SummaryState)

/-- The log is exact for a reader: it finds the headers and a line for each key that is listed,
and no key is listed twice under one header. -/
structure LineExact (ends : LineEnds) (py : GlossText) (stage : Stage) (bands : EntryBands) :
    Prop where
  lines : List.Forall₂ (LogLine.ReadsAs py bands) (s.log py stage)
    (splitLines ends (s.stageSummary py stage bands))
  dropped : ((s.details py).map LogLine.key).Nodup
  quarantined : ((s.review py).map LogLine.key).Nodup

/-- The texts of the lines are safe, and no key failed twice without an entry. -/
structure LineSafe (ends : LineEnds) (py : GlossText) (bands : EntryBands) : Prop where
  safe : ∀ l ∈ s.details py ++ s.review py, l.Safe ends py bands
  once : s.failedOnly.Nodup

theorem key_of_detail {key : String} {v : JsonValue} {l : LogLine}
    (h : SummaryState.detail py key v = some l) : l.key = key ∧ ∀ text, l ≠ .header text := by
  unfold SummaryState.detail at h
  split at h
  · simp only at h
    split at h
    · split at h
      · obtain rfl := Option.some.inj h
        exact ⟨rfl, nofun⟩
      · cases h
    · obtain rfl := Option.some.inj h
      exact ⟨rfl, nofun⟩
  · cases h

theorem key_of_quarantine {key : String} {v : JsonValue} {l : LogLine}
    (h : SummaryState.quarantine py key v = some l) : l.key = key ∧ ∀ text, l ≠ .header text := by
  unfold SummaryState.quarantine at h
  split at h
  · simp only at h
    split at h
    · obtain rfl := Option.some.inj h
      exact ⟨rfl, nofun⟩
    · cases h
  · cases h

theorem keys_filterMap_sublist {f : String × JsonValue → Option LogLine}
    (hf : ∀ e l, f e = some l → l.key = e.1) (entries : Dict) :
    ((entries.filterMap f).map LogLine.key).Sublist (entries.map Prod.fst) := by
  induction entries with
  | nil => exact List.Sublist.refl []
  | cons e entries ih =>
    cases he : f e with
    | none =>
      rw [List.filterMap_cons_none he]
      exact ih.cons e.1
    | some l =>
      rw [List.filterMap_cons_some he, List.map_cons, List.map_cons, hf e l he]
      exact ih.cons_cons e.1

theorem nodup_review : ((s.review py).map LogLine.key).Nodup :=
  s.keys.sublist (keys_filterMap_sublist (fun _ _ h => (key_of_quarantine h).1) s.done)

theorem nodup_details_iff : ((s.details py).map LogLine.key).Nodup ↔ s.failedOnly.Nodup := by
  have hsub := keys_filterMap_sublist (f := fun e => SummaryState.detail py e.1 e.2)
    (fun _ _ h => (key_of_detail h).1) s.done
  have hkeys : (s.failedOnly.map (LogLine.dropped · "failed-no-entry")).map LogLine.key =
      s.failedOnly := by
    rw [List.map_map]
    exact List.map_id' _
  rw [SummaryState.details, List.map_append, hkeys, List.nodup_append']
  refine ⟨fun h => h.2.1, fun h => ⟨s.keys.sublist hsub, h, fun key hkey hfailed => ?_⟩⟩
  have hnew := (List.mem_filter.mp hfailed).2
  simp only [decide_eq_true_eq] at hnew
  exact hnew (hsub.subset hkey)

theorem not_header_of_mem {l : LogLine} (h : l ∈ s.details py ++ s.review py) (text : String) :
    l ≠ .header text := by
  rcases List.mem_append.mp h with h | h
  · rcases List.mem_append.mp h with h | h
    · obtain ⟨e, -, he⟩ := List.mem_filterMap.mp h
      exact (key_of_detail he).2 text
    · obtain ⟨key, -, rfl⟩ := List.mem_map.mp h
      nofun
  · obtain ⟨e, -, he⟩ := List.mem_filterMap.mp h
    exact (key_of_quarantine he).2 text

theorem isPlain_header (stage : Stage) :
    ∀ text ∈ ["=== " ++ stage.id ++ " drops ===", "=== " ++ stage.id ++ " quarantine (kept, review) ==="],
      ∀ c ∈ text.toList, isPlain c = true := by
  have hid : stage.id.toList.all isPlain = true := by cases stage <;> decide
  have hall : ∀ tail : String, tail.toList.all isPlain = true →
      ("=== " ++ stage.id ++ tail).toList.all isPlain = true := by
    intro tail htail
    rw [String.toList_append, String.toList_append, List.all_append, List.all_append, hid, htail]
    decide
  intro text htext
  rcases List.mem_pair.mp htext with rfl | rfl
  · exact List.all_eq_true.mp (hall _ (by decide))
  · exact List.all_eq_true.mp (hall _ (by decide))

theorem mem_log {stage : Stage} {l : LogLine} (h : l ∈ s.log py stage) :
    l ∈ s.details py ++ s.review py ∨ ∃ text, l = .header text ∧
      ∀ c ∈ text.toList, isPlain c = true := by
  have hheaders := isPlain_header stage
  unfold SummaryState.log at h
  split at h
  · cases h
  · rcases List.mem_cons.mp h with rfl | h
    · exact .inr ⟨_, rfl, hheaders _ (by simp)⟩
    · rcases List.mem_append.mp h with h | h
      · exact .inl (List.mem_append_left _ h)
      · split at h
        · cases h
        · rcases List.mem_cons.mp h with rfl | h
          · exact .inr ⟨_, rfl, hheaders _ (by simp)⟩
          · exact .inl (List.mem_append_right _ h)

theorem mem_log_of_mem (stage : Stage) {l : LogLine} (h : l ∈ s.details py ++ s.review py) :
    l ∈ s.log py stage := by
  unfold SummaryState.log
  split
  · rename_i hnil
    rw [hnil.1, hnil.2] at h
    cases h
  · refine List.mem_cons_of_mem _ ?_
    rcases List.mem_append.mp h with h | h
    · exact List.mem_append_left _ h
    · rw [if_neg (List.ne_nil_of_mem h)]
      exact List.mem_append_right _ (List.mem_cons_of_mem _ h)

/-- **The drop log is line-exact exactly when the texts of its lines are safe.** -/
theorem dropLog_exact_iff (hlaws : BandLaws py) (ends : LineEnds) (stage : Stage) (bands : EntryBands) :
    LineExact s ends py stage bands ↔ LineSafe s ends py bands := by
  have hlines : List.Forall₂ (LogLine.ReadsAs py bands) (s.log py stage)
      (splitLines ends (s.stageSummary py stage bands)) ↔
        ∀ l ∈ s.details py ++ s.review py, l.Safe ends py bands := by
    rw [SummaryState.stageSummary, forall₂_splitLines_joinLines]
    constructor
    · intro h l hl
      exact (readsAs_iff hlaws (not_header_of_mem s hl)).mp (h l (mem_log_of_mem s stage hl))
    · intro h l hl
      rcases mem_log s hl with hl | ⟨text, rfl, hplain⟩
      · exact (readsAs_iff hlaws (not_header_of_mem s hl)).mpr (h l hl)
      · have hread : readLine text.toList = text.toList := by
          refine if_neg fun hlast => ?_
          exact absurd (hplain '\r' (List.mem_of_getLast? hlast)) (by decide)
        simp only [LogLine.text, LogLine.ReadsAs, hread, and_true]
        exact fun c hc => ends.plain c (hplain c hc)
  constructor
  · exact fun h => ⟨hlines.mp h.lines, (nodup_details_iff s).mp h.dropped⟩
  · exact fun h => ⟨hlines.mpr h.safe, (nodup_details_iff s).mpr h.once, nodup_review s⟩

end Section

/-! ## A reason with a line break -/

theorem toUpper_facts (c : Char) :
    c.toUpper.isWhitespace = c.isWhitespace ∧ (c.toUpper ∈ bandBreaks → c.toUpper = c) := by
  by_cases h : c.val ≥ 'a'.val ∧ c.val ≤ 'z'.val
  · obtain ⟨n, hle, hge, rfl⟩ : ∃ n, 97 ≤ n ∧ n ≤ 122 ∧ c = Char.ofNat n :=
      ⟨c.toNat, h.1, h.2, by simp⟩
    clear h
    interval_cases n <;> decide
  · have hsame : c.toUpper = c := by
      unfold Char.toUpper
      rw [dif_neg h]
    simp [hsame]

theorem bandLaws_ascii : BandLaws .ascii where
  opening := by decide
  closing := by decide
  unknown := by decide
  upper_breaks s c hc hmem := by
    have hupper : (GlossText.ascii.upper s).toList = s.toList.map Char.toUpper := String.toList_ofList
    rw [hupper] at hmem
    obtain ⟨d, hd, rfl⟩ := List.mem_map.mp hmem
    rw [(toUpper_facts d).2 hc]
    exact hd
  upper_strip s hs := by
    have htrim : trim Char.isWhitespace s.toList = s.toList := by
      have hlist := congrArg String.toList hs
      rwa [UnicodeLib.strip, String.toList_ofList] at hlist
    refine strip_eq_of_trim ?_
    have hspace : (fun c : Char => c.toUpper.isWhitespace) = Char.isWhitespace :=
      funext fun c => (toUpper_facts c).1
    have hmap := trim_map (p := Char.isWhitespace) Char.toUpper s.toList
    rw [hspace, htrim] at hmap
    exact hmap

/-- A dropped word, with this reason. -/
def earsDropped (reason : String) : SummaryState where
  done := [("w:ears", .obj [("kept", .bool false), ("reason", .str reason)])]
  failed := ["w:gone"]
  keys := List.nodup_singleton _

def earsBands : EntryBands := some [("w:ears", "b1")]

theorem earsDropped_exact :
    LineExact (earsDropped "inflected") .splitlines .ascii .inflectionReview earsBands := by
  refine (dropLog_exact_iff (earsDropped "inflected") bandLaws_ascii .splitlines .inflectionReview
    earsBands).mpr ⟨fun l hl => ?_, by decide⟩
  have hlines : (earsDropped "inflected").details .ascii ++ (earsDropped "inflected").review .ascii =
      [.dropped "w:ears" "inflected", .dropped "w:gone" "failed-no-entry"] := rfl
  have hplain : ∀ key reason, '[' ∉ (key ++ ": " ++ reason).toList →
      '[' ∉ readLine (key ++ ": " ++ reason).toList →
      (readLine (formatDropLine .ascii key reason earsBands)).all
        (!LineEnds.splitlines.isEnd ·) = true →
      (LogLine.dropped key reason).Safe .splitlines .ascii earsBands := by
    intro key reason hopen hread hclean
    refine ⟨fun c hc => by simpa using List.all_eq_true.mp hclean c hc, ?_, ?_⟩
    · rintro _ _ _ ⟨⟩ -
      exact not_opensBand hopen
    · rintro _ _ ⟨⟩ -
      exact not_endsInBand hread
  rw [hlines, List.mem_cons, List.mem_singleton] at hl
  rcases hl with rfl | rfl
  · exact hplain _ _ (by decide +kernel) (by decide +kernel) (by decide +kernel)
  · exact hplain _ _ (by decide +kernel) (by decide +kernel) (by decide +kernel)

/-- A line break in the reason makes a line of its own. -/
theorem forged_line :
    splitLines .universal ((earsDropped "inflected\nw:fake: evil").stageSummary .ascii
        .inflectionReview earsBands) =
      ["=== inflection_review drops ===".toList, "w:ears: inflected".toList,
        "w:fake: evil [entry=B1]".toList, "w:gone: failed-no-entry".toList] ∧
      ¬ LineExact (earsDropped "inflected\nw:fake: evil") .universal .ascii .inflectionReview
        earsBands := by
  have hlines : splitLines .universal ((earsDropped "inflected\nw:fake: evil").stageSummary .ascii
      .inflectionReview earsBands) =
        ["=== inflection_review drops ===".toList, "w:ears: inflected".toList,
          "w:fake: evil [entry=B1]".toList, "w:gone: failed-no-entry".toList] := by
    decide +kernel
  refine ⟨hlines, fun h => ?_⟩
  have hlength := h.lines.length_eq
  rw [hlines] at hlength
  exact absurd hlength (by decide +kernel)

end HamZaboon
