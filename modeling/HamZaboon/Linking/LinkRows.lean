import HamZaboon.Linking.Linker

/-! # Rows of the linker, read back

What the readers of `factory/linking/linker.py` find in a row that `arbitrate_link`
decided: no violation, a known method, and as many signals as fires, where the evidence
carries the fires and nothing else that is read as a signal (`row_reads_back`).  A score
is read as a signal, and so is a short gloss.
-/

namespace HamZaboon
open Library

/-- A fire of `Sa`, `Sb`, `Sc` or `Sd`. -/
def HasKind (fire : String) : Prop :=
  ∃ code ∈ ["Sa", "Sb", "Sc", "Sd"], hasTag (code ++ ":") fire = true

instance (fire : String) : Decidable (HasKind fire) :=
  inferInstanceAs (Decidable (∃ code ∈ ["Sa", "Sb", "Sc", "Sd"], hasTag (code ++ ":") fire = true))

namespace LinkInput
variable (i : LinkInput)

def ByFires : Prop :=
  i.edge.getD "" = "" ∧ i.manualNone = none ∧ i.manualOverride = none ∧ i.judgeLink = none ∧
    i.isTwin = false ∧ i.ultraShort = false

/-- The evidence is made of the fires. -/
def CarriesFires : Prop :=
  i.edge.getD "" = "" ∧ i.manualNone = none ∧ i.manualOverride = none ∧
    (i.judgeLink = none → i.isTwin = false)

/-- A link by so many fires has a name. -/
def NamedCount : Prop := i.fires.length = 2 ∨ i.fires.length = 3 ∧ i.isExact = false

end LinkInput

namespace LinkLib
variable (lib : LinkLib) (i : LinkInput)

def Links : Prop :=
  i.ByFires ∧ i.linkMin ≤ i.fires.length ∧ lib.vetoed i = false ∧ i.kid ∉ quarantined

/-- An override or a judge gives evidence that is not blank, and so do the fires of a link. -/
def HasEvidence : Prop :=
  (∀ sensekey reason, i.manualOverride = some (sensekey, reason) → lib.strip reason ≠ "") ∧
    (∀ sensekey tag, i.judgeLink = some (sensekey, tag) → i.fires = [] → lib.strip tag ≠ "") ∧
      (lib.Links i → i.fires = [] → i.seValue ≠ none)

/-- By itself the fire is read as one signal. -/
def ReadsAsOne (fire : String) : Prop := '|' ∉ fire.toList ∧ lib.nFires fire = 1

/-- The signals that are read besides the fires: those of the judge's tag, a short gloss
without a fire, or a score. -/
def besides : Nat :=
  match i.judgeLink with
  | some (_, tag) => lib.nFires tag
  | none =>
      if i.ultraShort then if i.fires = [] then 1 else 0
      else if i.linkMin ≤ i.fires.length ∧ i.seValue ≠ none then 1 else 0

def row : LinkTableRow := rowOf i.kid (lib.arbitrateLink i)

/-- The readers find in the row of an input what was decided. -/
def ReadsBack : Prop :=
  lib.validateTableRows [lib.row i] = [] ∧
    (lib.arbitrateLink i).method ∈ linkMethodVocab ∧ (lib.linkStats [lib.row i]).unknownMethods = [] ∧
      ((lib.linkStats [lib.row i]).stage .link = 1 ↔
        hasTag "LINK" (lib.arbitrateLink i).method = true) ∧
        lib.nFires (lib.arbitrateLink i).evidence = i.fires.length

variable {lib} {i}

/-! ## What is decided -/

/-- The branches of `arbitrate_link`. -/
inductive Decided (lib : LinkLib) (i : LinkInput) : LinkDecision → Prop
  | edge (h : i.edge.getD "" ≠ "") : Decided lib i ⟨"-", "UNMAPPED", i.edge.getD "", []⟩
  | manualNone {reason : String} (h : i.manualNone = some reason) :
      Decided lib i ⟨"-", "MANUAL-NONE", reason, ["manual-none"]⟩
  | manualOverride {sensekey reason : String} (h : i.manualOverride = some (sensekey, reason)) :
      Decided lib i ⟨sensekey, "LINK:manual-override", reason, []⟩
  | judge {sensekey tag : String} (flags : List String) (h : i.judgeLink = some (sensekey, tag)) :
      Decided lib i ⟨sensekey, "LINK:judge-v2",
        (if "+".intercalate i.fires ≠ "" then "+".intercalate i.fires ++ "+" else "") ++ tag, flags⟩
  | twin (cefr : String) (hjudge : i.judgeLink = none) (h : i.isTwin = true) :
      Decided lib i ⟨i.bestKey, "twin-pending", "best-cand-twinned;tsv-cefr=" ++ cefr, ["twin-pending"]⟩
  | shortGloss (hjudge : i.judgeLink = none) (h : i.ultraShort = true) :
      Decided lib i ⟨i.bestKey, "JUDGE-PENDING",
        "short-gloss:" ++ (if i.fires ≠ [] then "+".intercalate i.fires else "0sig"), []⟩
  | vetoed (h : i.ByFires) (hmin : i.linkMin ≤ i.fires.length) :
      Decided lib i ⟨i.bestKey, "JUDGE-PENDING",
        "+".intercalate i.fires ++ seTag i.seValue ++ "+se-veto", []⟩
  | quarantined (h : i.ByFires) (hmin : i.linkMin ≤ i.fires.length) :
      Decided lib i ⟨i.bestKey, "quarantined-known-false",
        "+".intercalate i.fires ++ seTag i.seValue ++ "+judge-first", ["quarantined-known-false"]⟩
  | link (h : lib.Links i) :
      Decided lib i ⟨i.bestKey, linkMethod i.isExact i.fires.length,
        "+".intercalate i.fires ++ seTag i.seValue, []⟩
  | unmapped (h : i.ByFires) (hmin : ¬ i.linkMin ≤ i.fires.length) (hfires : i.fires = []) :
      Decided lib i ⟨i.bestKey, "UNMAPPED", "0sig", []⟩
  | pending (h : i.ByFires) (hmin : ¬ i.linkMin ≤ i.fires.length) (hfires : i.fires ≠ []) :
      Decided lib i ⟨i.bestKey, "JUDGE-PENDING", "+".intercalate i.fires, []⟩

theorem hasTag_linkMethod (isExact : Bool) (n : Nat) : hasTag "LINK" (linkMethod isExact n) = true := by
  unfold hasTag linkMethod
  rw [List.isPrefixOf_iff_prefix, String.toList_append, String.toList_append]
  cases isExact with
  | true => exact ⟨":exact-sensekey+".toList ++ (toString n).toList ++ "-sig".toList, by simp⟩
  | false => exact ⟨":".toList ++ (toString n).toList ++ "-sig".toList, by simp⟩

theorem decided_arbitrateFires (h : i.ByFires) : Decided lib i (lib.arbitrateFires i) := by
  unfold arbitrateFires
  dsimp only
  split
  · rename_i hmin
    split
    · exact .vetoed h hmin
    · rename_i hveto
      unfold quarantineCheck
      by_cases hkid : i.kid ∈ HamZaboon.quarantined
      · rw [if_pos ⟨hasTag_linkMethod _ _, hkid⟩]
        exact .quarantined h hmin
      · rw [if_neg fun hboth => hkid hboth.2]
        exact .link ⟨h, hmin, eq_false_of_ne_true hveto, hkid⟩
  · rename_i hmin
    split
    · exact .unmapped h hmin ‹_›
    · exact .pending h hmin ‹_›

/-- **What `arbitrate_link` returns.** -/
theorem decided_arbitrateLink : Decided lib i (lib.arbitrateLink i) := by
  unfold arbitrateLink
  dsimp only
  split
  · exact .edge ‹_›
  · rename_i hedge
    split
    · exact .manualNone ‹_›
    · exact .manualOverride ‹_›
    · exact .judge _ ‹_›
    · rename_i hnone hoverride hjudge
      split
      · exact .twin _ hjudge ‹_›
      · rename_i htwin
        split
        · exact .shortGloss hjudge ‹_›
        · rename_i hshort
          exact decided_arbitrateFires ⟨not_not.mp hedge, hnone, hoverride, hjudge,
            eq_false_of_ne_true htwin, eq_false_of_ne_true hshort⟩

/-! ## Signals in an evidence -/

/-- The part counts in `n_fires`. -/
def countsPart (lib : LinkLib) (part : List Char) : Bool :=
  let s := flowSignal (lib.strip (String.ofList part))
  s.fired && decide (s.name ∈ canonRuleSignalNames)

theorem nFires_eq (evidence : String) :
    lib.nFires evidence = ((ruleHalf evidence).splitOn '+').countP lib.countsPart := by
  have hempty : ((flowSignal "").fired && decide ((flowSignal "").name ∈ canonRuleSignalNames)) = false := by
    decide
  have hcount : ((lib.plusParts (ruleHalf evidence)).filter (· ≠ "")).countP
      (fun tok => (flowSignal tok).fired && decide ((flowSignal tok).name ∈ canonRuleSignalNames)) =
      ((ruleHalf evidence).splitOn '+').countP lib.countsPart := by
    rw [List.countP_filter, plusParts, List.countP_map]
    refine List.countP_congr fun part _ => ?_
    simp only [Function.comp_apply, countsPart]
    by_cases hpart : lib.strip (String.ofList part) = ""
    · rw [hpart, hempty, Bool.false_and]
    · rw [decide_eq_true hpart, Bool.and_true]
  unfold nFires flowSignals
  dsimp only
  split
  · rename_i hnil
    rw [← hcount, List.map_eq_nil_iff.mp hnil]
    rfl
  · rw [← hcount, List.countP_map]
    rfl

theorem ruleHalf_append {a : String} (b : String) (h : '|' ∉ a.toList) :
    ruleHalf (a ++ b) = a.toList ++ ruleHalf b := by
  rw [ruleHalf, String.toList_append]
  exact List.takeWhile_append_of_pos fun _ hc => decide_eq_true fun heq => h (heq ▸ hc)

theorem ruleHalf_eq {a : String} (h : '|' ∉ a.toList) : ruleHalf a = a.toList :=
  List.takeWhile_eq_self_iff.mpr fun _ hc => decide_eq_true fun heq => h (heq ▸ hc)

/-- **The signals on the two sides of a plus add up.** -/
theorem nFires_plus {a : String} (b : String) (h : '|' ∉ a.toList) :
    lib.nFires (a ++ "+" ++ b) = lib.nFires a + lib.nFires b := by
  have hplus : '|' ∉ (a ++ "+").toList := by
    rw [String.toList_append, List.mem_append, not_or]
    exact ⟨h, by decide⟩
  rw [nFires_eq, nFires_eq, nFires_eq, ruleHalf_append b hplus, ruleHalf_eq h, String.toList_append,
    List.append_assoc]
  have hsplit : (a.toList ++ ("+".toList ++ ruleHalf b)).splitOn '+' =
      a.toList.splitOn '+' ++ (ruleHalf b).splitOn '+' := List.splitOn_append_cons_self _ _
  rw [hsplit, List.countP_append]

theorem not_mem_intercalate {fires : List String} (h : ∀ f ∈ fires, '|' ∉ f.toList) :
    '|' ∉ ("+".intercalate fires).toList := by
  induction fires with
  | nil => decide
  | cons f fires ih =>
    obtain ⟨hf, hrest⟩ := List.forall_mem_cons.mp h
    by_cases hnil : fires = []
    · rw [hnil, String.intercalate_singleton]
      exact hf
    · rw [String.intercalate_cons_of_ne_nil hnil, String.toList_append, String.toList_append]
      simp only [List.mem_append, not_or]
      exact ⟨⟨hf, by decide⟩, ih hrest⟩

theorem countsPart_eq {part : List Char} {tok : String} (h : trim lib.isSpace part = tok.toList) :
    lib.countsPart part = ((flowSignal tok).fired && decide ((flowSignal tok).name ∈ canonRuleSignalNames)) := by
  have hstrip : lib.strip (String.ofList part) = tok := by
    rw [strip, String.toList_ofList, h, String.ofList_toList]
  rw [countsPart, hstrip]

theorem nFires_part {a : String} (hbar : '|' ∉ a.toList) (hplus : '+' ∉ a.toList) :
    lib.nFires a = if lib.countsPart a.toList then 1 else 0 := by
  rw [nFires_eq, ruleHalf_eq hbar, List.splitOn_eq_singleton hplus, List.countP_singleton]

theorem nFires_eq_zero {a : String} (htrim : trim lib.isSpace a.toList = a.toList)
    (h : '|' ∉ a.toList ∧ '+' ∉ a.toList ∧
      ((flowSignal a).fired && decide ((flowSignal a).name ∈ canonRuleSignalNames)) = false) :
    lib.nFires a = 0 := by
  rw [nFires_part h.1 h.2.1, countsPart_eq htrim, h.2.2]
  rfl

theorem trim_word {l : List Char}
    (h : (l.head?.all Char.isAlphanum && l.getLast?.all Char.isAlphanum) = true) :
    trim lib.isSpace l = l := by
  obtain ⟨hhead, hlast⟩ := Bool.and_eq_true_iff.mp h
  cases l with
  | nil => rfl
  | cons a l =>
    refine trim_eq_self (lib.isSpace_alphanum a hhead) fun b hb => lib.isSpace_alphanum b ?_
    rw [Option.mem_def.mp hb] at hlast
    exact hlast

theorem nFires_empty : lib.nFires "" = 0 := nFires_eq_zero (trim_word (by decide)) (by decide)

theorem nFires_zeroSig : lib.nFires "0sig" = 0 := nFires_eq_zero (trim_word (by decide)) (by decide)

theorem nFires_seVeto : lib.nFires "se-veto" = 0 := nFires_eq_zero (trim_word (by decide)) (by decide)

theorem nFires_judgeFirst : lib.nFires "judge-first" = 0 :=
  nFires_eq_zero (trim_word (by decide)) (by decide)

/-! ## Signals with a code -/

theorem counts_of_code {tok : String} (h : ∃ code ∈ signalCodes, hasTag (code ++ ":") tok = true) :
    ((flowSignal tok).fired && decide ((flowSignal tok).name ∈ canonRuleSignalNames)) = true := by
  obtain ⟨code, hfind⟩ := Option.isSome_iff_exists.mp (List.find?_isSome.mpr h)
  have hcode : flowSignalCode tok = code := by
    rw [flowSignalCode, hfind]
  have hcounts : ∀ code ∈ signalCodes, (decide (signalName code ≠ "no-signal") &&
      decide (signalName code ∈ canonRuleSignalNames)) = true := by decide
  simp only [flowSignal, hcode]
  exact hcounts code (List.mem_of_find?_eq_some hfind)

theorem counts_of_shortGloss (rest : List Char) {tok : String}
    (h : tok.toList = "short-gloss:".toList ++ rest) :
    ((flowSignal tok).fired && decide ((flowSignal tok).name ∈ canonRuleSignalNames)) = true := by
  have hfind : signalCodes.find? (fun code => hasTag (code ++ ":") tok) = none := by
    refine List.find?_eq_none.mpr fun code hcode hprefix => ?_
    have hhead : ∀ code ∈ signalCodes, (code ++ ":").toList.head? = some 'S' := by decide
    obtain ⟨t, ht⟩ := List.isPrefixOf_iff_prefix.mp hprefix
    have hfirst := congrArg List.head? (ht.trans h)
    rw [List.head?_append, hhead code hcode, List.head?_append] at hfirst
    have hsame : some 'S' = some 's' := hfirst
    exact absurd hsame (by decide)
  have hholds : holdsText "short-gloss" tok = true := by
    refine decide_eq_true ⟨[], ":".toList ++ rest, ?_⟩
    rw [h]
    rfl
  have hcode : flowSignalCode tok = "short-gloss" := by
    rw [flowSignalCode, hfind]
    exact if_pos hholds
  simp only [flowSignal, hcode]
  decide

/-- A beginning that makes any part of it a signal, and ends in a colon. -/
def Marks (lib : LinkLib) (w : List Char) : Prop :=
  '|' ∉ w ∧ '+' ∉ w ∧ ∀ rest, lib.countsPart (w ++ rest) = true

theorem trim_colon {w : List Char} (hhead : w.head?.all Char.isAlphanum = true)
    (hlast : w.getLast? = some ':') (rest : List Char) :
    trim lib.isSpace (w ++ rest) = w ++ rest.rdropWhile lib.isSpace := by
  cases w with
  | nil => cases hlast
  | cons a w =>
    refine trim_append (lib.isSpace_alphanum a hhead) (fun b hb => ?_) rest
    obtain rfl := Option.some.inj (hlast.symm.trans hb)
    exact lib.isSpace_colon

theorem marks_code {code : String} (h : code ∈ signalCodes) : lib.Marks (code ++ ":").toList := by
  have hplain : ∀ code ∈ signalCodes, '|' ∉ (code ++ ":").toList ∧ '+' ∉ (code ++ ":").toList ∧
      (code ++ ":").toList.head?.all Char.isAlphanum = true ∧
        (code ++ ":").toList.getLast? = some ':' := by decide
  obtain ⟨hbar, hplus, hhead, hlast⟩ := hplain code h
  refine ⟨hbar, hplus, fun rest => ?_⟩
  rw [countsPart_eq ((trim_colon hhead hlast rest).trans String.toList_ofList.symm)]
  refine counts_of_code ⟨code, h, List.isPrefixOf_iff_prefix.mpr ?_⟩
  rw [String.toList_ofList]
  exact List.prefix_append _ _

theorem marks_shortGloss : lib.Marks "short-gloss:".toList := by
  refine ⟨by decide, by decide, fun rest => ?_⟩
  have htrim : trim lib.isSpace ("short-gloss:".toList ++ rest) =
      "short-gloss:".toList ++ rest.rdropWhile lib.isSpace := trim_colon (by decide) (by decide) rest
  rw [countsPart_eq (htrim.trans String.toList_ofList.symm)]
  exact counts_of_shortGloss _ String.toList_ofList

theorem nFires_intercalate {fires : List String} (h : ∀ f ∈ fires, lib.ReadsAsOne f) :
    lib.nFires ("+".intercalate fires) = fires.length := by
  induction fires with
  | nil => exact nFires_empty
  | cons f fires ih =>
    obtain ⟨hf, hrest⟩ := List.forall_mem_cons.mp h
    by_cases hnil : fires = []
    · rw [hnil, String.intercalate_singleton]
      exact hf.2
    · rw [String.intercalate_cons_of_ne_nil hnil, nFires_plus _ hf.1, hf.2, ih hrest,
        List.length_cons, Nat.add_comm]

theorem splitOn_append_of_not_mem {α : Type} [DecidableEq α] {x : α} {w : List α} (h : x ∉ w)
    (l : List α) : (w ++ l).splitOn x = (l.splitOn x).modifyHead (w ++ ·) := by
  induction w with
  | nil =>
    rw [List.nil_append]
    exact (congrFun List.modifyHead_id (l.splitOn x)).symm
  | cons a w ih =>
    obtain ⟨ha, hw⟩ := not_or.mp fun hor => h (List.mem_cons.mpr hor)
    rw [List.cons_append, List.splitOn_cons_eq_if_modifyHead, if_neg (by simpa using Ne.symm ha),
      ih hw, List.modifyHead_modifyHead]
    rfl

theorem nFires_marks {w : String} (hw : lib.Marks w.toList) (text : String) :
    lib.nFires (w ++ text) = 1 + ((ruleHalf text).splitOn '+').tail.countP lib.countsPart := by
  obtain ⟨hbar, hplus, hcounts⟩ := hw
  rw [nFires_eq, ruleHalf_append _ hbar, splitOn_append_of_not_mem hplus]
  obtain ⟨part, parts, hparts⟩ := List.exists_cons_of_ne_nil (List.splitOn_ne_nil '+' (ruleHalf text))
  rw [hparts, List.modifyHead_cons, List.countP_cons, if_pos (hcounts part), List.tail_cons,
    Nat.add_comm]

theorem tail_splitOn_append {w : String} (hw : lib.Marks w.toList) (text : String) :
    ((ruleHalf (w ++ text)).splitOn '+').tail = ((ruleHalf text).splitOn '+').tail := by
  obtain ⟨hbar, hplus, -⟩ := hw
  rw [ruleHalf_append _ hbar, splitOn_append_of_not_mem hplus, List.tail_modifyHead]

theorem eq_append_of_hasKind {fire : String} (h : HasKind fire) :
    ∃ code ∈ signalCodes, ∃ text, fire = code ++ ":" ++ text := by
  obtain ⟨code, hcode, htag⟩ := h
  have hcodes : ∀ code ∈ ["Sa", "Sb", "Sc", "Sd"], code ∈ signalCodes := by decide
  obtain ⟨text, htext⟩ := List.isPrefixOf_iff_prefix.mp htag
  refine ⟨code, hcodes code hcode, String.ofList text, ?_⟩
  rw [← String.toList_inj, String.toList_append, String.toList_ofList, htext]

theorem readsAsOne_of_plain {fire : String} (h : HasKind fire) (hbar : '|' ∉ fire.toList)
    (hplus : '+' ∉ fire.toList) : lib.ReadsAsOne fire := by
  refine ⟨hbar, ?_⟩
  obtain ⟨code, hcode, text, rfl⟩ := eq_append_of_hasKind h
  have hmarks : lib.Marks (code ++ ":").toList := marks_code hcode
  rw [nFires_part hbar hplus, String.toList_append, if_pos (hmarks.2.2 _)]

theorem intercalate_eq_append {fires : List String} (hkinds : ∀ f ∈ fires, HasKind f)
    (hne : fires ≠ []) :
    ∃ code ∈ signalCodes, ∃ text, "+".intercalate fires = code ++ ":" ++ text := by
  obtain ⟨f, fires, rfl⟩ := List.exists_cons_of_ne_nil hne
  obtain ⟨code, hcode, text, rfl⟩ := eq_append_of_hasKind (hkinds f List.mem_cons_self)
  refine ⟨code, hcode, ?_⟩
  by_cases hnil : fires = []
  · exact ⟨text, by rw [hnil, String.intercalate_singleton]⟩
  · refine ⟨text ++ "+" ++ "+".intercalate fires, ?_⟩
    rw [String.intercalate_cons_of_ne_nil hnil]
    simp only [String.append_assoc]

theorem nFires_shortGloss {fires : List String} (hkinds : ∀ f ∈ fires, HasKind f)
    (hne : fires ≠ []) :
    lib.nFires ("short-gloss:" ++ "+".intercalate fires) = lib.nFires ("+".intercalate fires) := by
  obtain ⟨code, hcode, text, htext⟩ := intercalate_eq_append hkinds hne
  have hmarks : lib.Marks (code ++ ":").toList := marks_code hcode
  rw [htext, nFires_marks marks_shortGloss, tail_splitOn_append hmarks, nFires_marks hmarks]

theorem nFires_shortGloss_zeroSig : lib.nFires ("short-gloss:" ++ "0sig") = 1 := by
  rw [nFires_marks marks_shortGloss, ruleHalf_eq (by decide), List.splitOn_eq_singleton (by decide)]
  rfl

/-! ## The score -/

theorem fixed_plain (value : PyFloat) : '|' ∉ value.fixed.toList ∧ '+' ∉ value.fixed.toList := by
  have hchars : ∀ c ∈ value.fixed.toList,
      (c.isDigit || isAsciiDigit c || "-.inaf".toList.contains c) = true := by
    cases value with
    | finite q =>
      intro c hc
      simp only [PyFloat.fixed, String.toList_append, List.mem_append, String.toList_ofList] at hc
      rcases hc with ((hc | hc) | hc) | hc
      · split at hc
        · obtain rfl := List.mem_singleton.mp hc
          decide
        · cases hc
      · rw [Nat.isDigit_of_mem_toDigits (by decide) (by decide) hc, Bool.true_or, Bool.true_or]
      · obtain rfl := List.mem_singleton.mp hc
        decide
      · rw [List.all_eq_true.mp (digits_pad _ _) c hc, Bool.or_true, Bool.true_or]
    | inf => exact List.all_eq_true.mp (by decide)
    | negInf => exact List.all_eq_true.mp (by decide)
    | nan => exact List.all_eq_true.mp (by decide)
  exact ⟨fun h => absurd (hchars _ h) (by decide), fun h => absurd (hchars _ h) (by decide)⟩

theorem nFires_seTag {a : String} (h : '|' ∉ a.toList) (seValue : Option PyFloat) :
    lib.nFires (a ++ seTag seValue) = lib.nFires a + (if seValue ≠ none then 1 else 0) := by
  cases seValue with
  | none => simp [seTag]
  | some value =>
    have hse : a ++ seTag (some value) = a ++ "+" ++ ("Se" ++ ":" ++ value.fixed) := by
      rw [seTag, ← String.toList_inj]
      simp
    obtain ⟨hbar, hplus⟩ := fixed_plain value
    rw [hse, nFires_plus _ h, nFires_marks (marks_code (by decide)), ruleHalf_eq hbar,
      List.splitOn_eq_singleton hplus]
    rfl

theorem not_mem_seTag {a : String} (h : '|' ∉ a.toList) (seValue : Option PyFloat) :
    '|' ∉ (a ++ seTag seValue).toList := by
  rw [String.toList_append, List.mem_append, not_or]
  refine ⟨h, ?_⟩
  cases seValue with
  | none => decide
  | some value =>
    rw [seTag, String.toList_append, List.mem_append, not_or]
    exact ⟨by decide, (fixed_plain value).1⟩

theorem nFires_noted {a note : String} (h : '|' ∉ a.toList) (hnote : lib.nFires note = 0)
    (seValue : Option PyFloat) :
    lib.nFires (a ++ seTag seValue ++ ("+" ++ note)) =
      lib.nFires a + (if seValue ≠ none then 1 else 0) := by
  rw [← String.append_assoc, nFires_plus _ (not_mem_seTag h seValue), hnote, nFires_seTag h, Nat.add_zero]

/-! ## The readers -/

theorem strip_ne_empty_of_mem {s : String} {c : Char} (hc : c ∈ s.toList)
    (hspace : lib.isSpace c = false) : lib.strip s ≠ "" := by
  intro hempty
  have hnil : trim lib.isSpace s.toList = [] := by
    rw [strip, ← String.toList_inj, String.toList_ofList] at hempty
    exact hempty
  rw [trim_eq_nil_iff.mp hnil c hc] at hspace
  cases hspace

theorem rowViolations_eq_nil {kid : String} {d : LinkDecision}
    (hlink : hasTag "LINK" d.method = true → lib.strip d.evidence ≠ "")
    (hnone : d.method = "MANUAL-NONE" → d.sensekey = "-") : lib.rowViolations (rowOf kid d) = [] := by
  have hflagged : ∀ method ∈ ["twin-pending", "quarantined-known-false", "MANUAL-NONE"],
      hasTag "LINK" method ≠ true := by decide
  unfold rowViolations rowOf
  dsimp only [Option.getD_some]
  rw [if_neg fun h => hlink h.1 h.2, List.nil_append]
  split
  · rename_i hmethod
    rw [if_neg (hflagged _ hmethod), if_neg fun h => h.2 (hnone h.1)]
    rfl
  · rfl

theorem unknownMethods_eq_nil {rows : List LinkTableRow}
    (h : ∀ row ∈ rows, row.method.getD "" ∈ linkMethodVocab) :
    (lib.linkStats rows).unknownMethods = [] := by
  have hnone : ((countTexts (rows.map fun row => row.method.getD "")).map (·.1)).filter
      (· ∉ linkMethodVocab) = [] := by
    refine List.filter_eq_nil_iff.mpr fun method hmethod => ?_
    obtain ⟨e, he, rfl⟩ := List.mem_map.mp hmethod
    obtain ⟨text, htext, rfl⟩ := List.mem_map.mp he
    obtain ⟨row, hrow, rfl⟩ := List.mem_map.mp (List.mem_eraseDups.mp htext)
    simpa using h row hrow
  simp only [linkStats]
  rw [hnone, List.insertionSort_nil]

theorem statsStage_eq_link {method : String} :
    statsStage method = .link ↔ hasTag "LINK" method = true := by
  unfold statsStage
  constructor
  · intro h
    split_ifs at h
    assumption
  · exact fun h => if_pos h

theorem stage_link (rows : List LinkTableRow) :
    (lib.linkStats rows).stage .link = rows.countP fun row => hasTag "LINK" (row.method.getD "") := by
  simp only [linkStats, List.countP_map]
  refine List.countP_congr fun row _ => ?_
  simp [statsStage_eq_link]

/-! ## Rows of decisions -/

theorem strip_fires_ne_empty_of_kinds (hkinds : ∀ f ∈ i.fires, HasKind f) (hne : i.fires ≠ []) (text : String) :
    lib.strip ("+".intercalate i.fires ++ text) ≠ "" := by
  obtain ⟨code, hcode, rest, hrest⟩ := intercalate_eq_append hkinds hne
  have hfirst : ∀ code ∈ signalCodes, 'S' ∈ (code ++ ":").toList := by decide
  refine strip_ne_empty_of_mem (c := 'S') ?_ (lib.isSpace_alphanum _ (by decide))
  rw [hrest, String.append_assoc, String.toList_append]
  exact List.mem_append_left _ (hfirst code hcode)

theorem strip_evidence_ne_empty (hkinds : ∀ f ∈ i.fires, HasKind f) (hevidence : lib.HasEvidence i)
    {d : LinkDecision} (hd : Decided lib i d) (hlink : hasTag "LINK" d.method = true) :
    lib.strip d.evidence ≠ "" := by
  obtain ⟨hoverride, hjudge, hscore⟩ := hevidence
  cases hd with
  | manualOverride h => exact hoverride _ _ h
  | @judge sensekey tag flags h =>
    by_cases hfires : i.fires = []
    · rw [hfires]
      simpa using hjudge _ _ h hfires
    · obtain ⟨code, hcode, text, htext⟩ := intercalate_eq_append hkinds hfires
      have hne : "+".intercalate i.fires ≠ "" := by
        intro hempty
        have hstrip : lib.strip ("+".intercalate i.fires ++ "") ≠ "" :=
          strip_fires_ne_empty_of_kinds hkinds hfires ""
        rw [hempty] at hstrip
        exact hstrip rfl
      rw [if_pos hne, String.append_assoc]
      exact strip_fires_ne_empty_of_kinds hkinds hfires _
  | link h =>
    by_cases hfires : i.fires = []
    · obtain ⟨value, hvalue⟩ := Option.ne_none_iff_exists'.mp (hscore h hfires)
      refine strip_ne_empty_of_mem (c := 'S') ?_ (lib.isSpace_alphanum _ (by decide))
      rw [hvalue, seTag]
      simp
    · exact strip_fires_ne_empty_of_kinds hkinds hfires _
  | _ =>
    dsimp only at hlink
    exact absurd hlink (by decide)

theorem sensekey_of_manualNone {d : LinkDecision} (hd : Decided lib i d)
    (hmethod : d.method = "MANUAL-NONE") : d.sensekey = "-" := by
  cases hd with
  | edge => rfl
  | manualNone => rfl
  | link =>
    have htag := hasTag_linkMethod i.isExact i.fires.length
    rw [show linkMethod i.isExact i.fires.length = "MANUAL-NONE" from hmethod] at htag
    exact absurd htag (by decide)
  | _ =>
    dsimp only at hmethod
    exact absurd hmethod (by decide)

theorem linkMethod_mem (h : i.NamedCount) : linkMethod i.isExact i.fires.length ∈ linkMethodVocab := by
  rcases h with h | ⟨h, hexact⟩
  · rw [h]
    cases i.isExact <;> decide
  · rw [h, hexact]
    decide

theorem method_mem (hcount : lib.Links i → i.NamedCount) {d : LinkDecision} (hd : Decided lib i d) :
    d.method ∈ linkMethodVocab := by
  cases hd with
  | link h => exact linkMethod_mem (hcount h)
  | _ =>
    dsimp only
    decide

theorem besides_of_byFires (h : i.ByFires) :
    lib.besides i = if i.linkMin ≤ i.fires.length ∧ i.seValue ≠ none then 1 else 0 := by
  obtain ⟨-, -, -, hjudge, -, hshort⟩ := h
  rw [besides, hjudge, hshort]
  rfl

theorem besides_of_min (h : i.ByFires) (hmin : i.linkMin ≤ i.fires.length) :
    lib.besides i = if i.seValue ≠ none then 1 else 0 := by
  rw [besides_of_byFires h]
  simp only [hmin, true_and]

theorem besides_of_not_min (h : i.ByFires) (hmin : ¬ i.linkMin ≤ i.fires.length) : lib.besides i = 0 := by
  rw [besides_of_byFires h, if_neg fun hboth => hmin hboth.1]

theorem nFires_evidence (hkinds : ∀ f ∈ i.fires, HasKind f) (hone : ∀ f ∈ i.fires, lib.ReadsAsOne f)
    (hcarries : i.CarriesFires) {d : LinkDecision} (hd : Decided lib i d) :
    lib.nFires d.evidence = i.fires.length + lib.besides i := by
  obtain ⟨hedge, hnone, hoverride, htwin⟩ := hcarries
  have hbar := not_mem_intercalate fun f hf => (hone f hf).1
  have hjoined : lib.nFires ("+".intercalate i.fires) = i.fires.length := nFires_intercalate hone
  cases hd with
  | edge h => exact absurd hedge h
  | manualNone h =>
    rw [hnone] at h
    cases h
  | manualOverride h =>
    rw [hoverride] at h
    cases h
  | twin _ hjudge h =>
    rw [htwin hjudge] at h
    cases h
  | @judge sensekey tag flags h =>
    have hbesides : lib.besides i = lib.nFires tag := by rw [besides, h]
    rw [hbesides]
    dsimp only
    split
    · rw [nFires_plus _ hbar, hjoined]
    · rename_i hempty
      rw [not_not.mp hempty, nFires_empty] at hjoined
      rw [← hjoined, Nat.zero_add, String.empty_append]
  | shortGloss hjudge h =>
    have hbesides : lib.besides i = if i.fires = [] then 1 else 0 := by rw [besides, hjudge, h]; rfl
    rw [hbesides]
    dsimp only
    by_cases hfires : i.fires = []
    · rw [if_neg (not_not.mpr hfires), if_pos hfires, nFires_shortGloss_zeroSig, hfires]
      rfl
    · rw [if_pos hfires, if_neg hfires, nFires_shortGloss hkinds hfires, hjoined]
      rfl
  | vetoed h hmin => rw [besides_of_min h hmin, ← hjoined, ← nFires_noted hbar nFires_seVeto i.seValue]; rfl
  | quarantined h hmin =>
    rw [besides_of_min h hmin, ← hjoined, ← nFires_noted hbar nFires_judgeFirst i.seValue]
    rfl
  | link h => rw [besides_of_min h.1 h.2.1, ← hjoined, ← nFires_seTag hbar]
  | unmapped h hmin hfires => rw [besides_of_not_min h hmin, hfires, nFires_zeroSig]; rfl
  | pending h hmin _ => rw [besides_of_not_min h hmin, hjoined, Nat.add_zero]

/-- **The row of a decision, read back.** -/
theorem row_reads_back (lib : LinkLib) {i : LinkInput} (hkinds : ∀ f ∈ i.fires, HasKind f) :
    (lib.HasEvidence i → lib.validateTableRows [lib.row i] = []) ∧
      ((lib.Links i → i.NamedCount) → (lib.arbitrateLink i).method ∈ linkMethodVocab ∧
        (lib.linkStats [lib.row i]).unknownMethods = []) ∧
      ((lib.linkStats [lib.row i]).stage .link = 1 ↔
        hasTag "LINK" (lib.arbitrateLink i).method = true) ∧
      (i.CarriesFires → (∀ f ∈ i.fires, lib.ReadsAsOne f) →
        lib.nFires (lib.arbitrateLink i).evidence = i.fires.length + lib.besides i) := by
  have hd : Decided lib i (lib.arbitrateLink i) := decided_arbitrateLink
  refine ⟨fun hevidence => ?_, fun hcount => ?_, ?_, fun hcarries hone => ?_⟩
  · rw [validateTableRows, List.flatMap_singleton]
    exact rowViolations_eq_nil (strip_evidence_ne_empty hkinds hevidence hd) (sensekey_of_manualNone hd)
  · have hmethod := method_mem hcount hd
    refine ⟨hmethod, unknownMethods_eq_nil fun row hrow => ?_⟩
    obtain rfl := List.mem_singleton.mp hrow
    exact hmethod
  · have hmethod : (lib.row i).method.getD "" = (lib.arbitrateLink i).method := rfl
    rw [stage_link, List.countP_singleton, hmethod]
    split <;> simp_all
  · exact nFires_evidence hkinds hone hcarries hd

/-- Two fires and a score. -/
def lightSource : LinkInput where
  kid := "en-light-en-noun-en:source_of_illumination"
  bestKey := "light_source%1:06:00::"
  fires := ["Sa:j=0.27", "Sb:source"]
  seValue := some (.finite (3 / 4))
  saWords := {"source"}

/-- A fire for a candidate with a twin. -/
def outsideTwin : LinkInput where
  kid := "en-outside-en-adv-E7dgXPoq"
  bestKey := "outside%4:02:00::"
  fires := ["Sa:j=0.40"]
  isTwin := true
  twinCefr := ["A1", "A2"]

theorem row_reads_back_lightSource : ascii.validateTableRows [ascii.row lightSource] = [] ∧
    (ascii.arbitrateLink lightSource).method ∈ linkMethodVocab ∧
      ascii.nFires (ascii.arbitrateLink lightSource).evidence = 3 := by
  have hplain : ∀ f ∈ lightSource.fires, '|' ∉ f.toList ∧ '+' ∉ f.toList := by decide
  have hkinds : ∀ f ∈ lightSource.fires, HasKind f := by decide
  obtain ⟨hclean, hmethod, -, hfires⟩ := row_reads_back ascii hkinds
  refine ⟨hclean ⟨fun _ _ h => (nomatch h), fun _ _ h => (nomatch h), fun _ h => (nomatch h)⟩,
    (hmethod fun _ => Or.inl rfl).1, ?_⟩
  exact hfires ⟨rfl, rfl, rfl, fun _ => rfl⟩ fun f hf =>
    readsAsOne_of_plain (hkinds f hf) (hplain f hf).1 (hplain f hf).2

/-- The score of a link is read as a third fire, and the row of a twin carries none. -/
theorem rows_read_otherwise : ¬ ascii.ReadsBack lightSource ∧ ¬ ascii.ReadsBack outsideTwin := by
  have hscore : ascii.nFires (ascii.arbitrateLink lightSource).evidence ≠ 2 := by decide +kernel
  have htwin : ascii.nFires (ascii.arbitrateLink outsideTwin).evidence ≠ 1 := by decide +kernel
  exact ⟨fun h => hscore h.2.2.2.2, fun h => htwin h.2.2.2.2⟩

end LinkLib

end HamZaboon
