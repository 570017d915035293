import HamZaboon.Precard.AnchorWindow

/-! # The verdict of an anchor

`anchor` of `anchor.py`: an item anchored in a proper noun or in a name is rerouted to
another sense of its window, and an item that no sense of the window saves, or that is
anchored in a vulgar sense, is dropped.

A reroute looks its target up by the id, and keeps the tags of the sense it leaves where
the target has none.
-/

namespace HamZaboon
open Library

def properNounPos : List String := ["name", "propn"]

def vulgarTags : List String :=
  ["vulgar", "offensive", "derogatory", "obscene", "profane", "ethnic-slur", "slur"]

def isProper (pos : String) : Bool := pos ∈ properNounPos

def isVulgar (tags : List String) : Bool := tags.any (· ∈ vulgarTags)

/-- The drops of `anchor`. -/
inductive AnchorDrop
  | properNoun
  | nameGloss
  | vulgarAnchor
  | noRealDef
  deriving DecidableEq, Repr

def AnchorDrop.text : AnchorDrop → String
  | properNoun => "anchor-proper-noun"
  | nameGloss => "anchor-name-gloss"
  | vulgarAnchor => "vulgar-anchor"
  | noRealDef => "no-real-def"

/-- The ranked entry that `anchor` returns, and its warnings. -/
structure AnchorView where
  ranked : Ranked
  dropped : Option AnchorDrop := none
  reroutedFromProper : Bool := false
  reroutedFromName : Bool := false
  warnings : List String := []
  deriving DecidableEq, Repr

section Verdict
variable (py : GlossText) {F : Type} (scorer : Scorer F) (d : Dictionary) (item : AnchorItem)

/-! ## Lookups by the id -/

def resolvePickEntries (id : SenseId) : List IndexRow × List String :=
  let word := wordKey py id.word
  if word ≠ "" ∧ word ≠ wordKey py item.text ∧ d.rows word ≠ [] then (d.rows word, [])
  else entriesFor py d item

def windowSense (id : SenseId) : Option (ScoredSense F) :=
  let word := wordKey py id.word
  let (rows, pool) := resolvePickEntries py d item id
  (scoreSenses py scorer d (if word = "" then item.text else word) rows pool).find?
    (·.index = id.index)

def pickedEntryPos (id : SenseId) : String :=
  ((windowSense py scorer d item id).map (entryPosText py ·.entry)).getD ""

def targetSenseTags (id : SenseId) : List String :=
  ((windowSense py scorer d item id).map (normalizeTags py ·.sense.tags)).getD []

/-! ## Reroutes -/

/-- The candidate that `_reroute_proper_anchor` returns, with its part of speech. -/
def rerouteProperAnchor (ranked : Ranked) : Option (AnchorTop × String) :=
  (ranked.candidates.find? fun cand =>
    pickedEntryPos py scorer d item cand.id ≠ "" &&
      !isProper (pickedEntryPos py scorer d item cand.id)).map fun cand =>
    (cand, pickedEntryPos py scorer d item cand.id)

/-- The gloss of the top, empty where there is none. -/
def Ranked.topGloss (ranked : Ranked) : String := (ranked.top.map (·.gloss)).getD ""

/-- The candidate that `_reroute_name_gloss_anchor` returns, with its part of speech. -/
def rerouteNameGlossAnchor (ranked : Ranked) : Option (AnchorTop × String) :=
  if !isNameGloss py.toPyText ranked.topGloss then none
  else
    (ranked.candidates.find? fun cand =>
      !isNameGloss py.toPyText cand.gloss &&
        !isProper (pickedEntryPos py scorer d item cand.id)).map fun cand =>
      (cand, pickedEntryPos py scorer d item cand.id)

/-- The entry after a reroute: the candidate is the top and the first of the window, and
tags that are found replace the old ones. -/
def rerouteTo (ranked : Ranked) (cand : AnchorTop) (pos : String) : Ranked :=
  let fresh := targetSenseTags py scorer d item cand.id
  { ranked with
    candidates := cand :: ranked.candidates.filter (·.id ≠ cand.id)
    top := some cand
    enDef := cand.gloss
    anchorPos := pos
    anchorTags := if fresh = [] then ranked.anchorTags else fresh }

/-- A warning of `anchor`. -/
def rerouteWarning (what : String) (cand : AnchorTop) : String :=
  "warning: " ++ sourceItemKey item.toSampleItem ++ " re-anchored off " ++ what ++ " top -> " ++
    cand.id.text

def anchorOffProper (ranked : Ranked) : AnchorView :=
  match rerouteProperAnchor py scorer d item ranked with
  | none => { ranked, dropped := some .properNoun }
  | some (cand, pos) =>
    let ranked := rerouteTo py scorer d item ranked cand pos
    { ranked
      dropped := if isVulgar ranked.anchorTags then some .vulgarAnchor else none
      reroutedFromProper := !isVulgar ranked.anchorTags
      warnings := [rerouteWarning item "proper" cand] }

/-- The branch of a top that is a name; a target that is dropped leaves no warning here. -/
def anchorOffName (ranked : Ranked) : AnchorView :=
  match rerouteNameGlossAnchor py scorer d item ranked with
  | none => { ranked, dropped := some .nameGloss }
  | some (cand, pos) =>
    let ranked := rerouteTo py scorer d item ranked cand pos
    if isVulgar ranked.anchorTags then { ranked, dropped := some .vulgarAnchor }
    else { ranked, reroutedFromName := true, warnings := [rerouteWarning item "name" cand] }

/-- The branches without a reroute. -/
def anchorInPlace (ranked : Ranked) : AnchorView :=
  if isVulgar ranked.anchorTags then { ranked, dropped := some .vulgarAnchor }
  else if ranked.xrefUnresolvable then { ranked, dropped := some .noRealDef }
  else { ranked }

def anchor : AnchorView :=
  let ranked := anchorRankItem py scorer d item
  if isProper ranked.anchorPos then anchorOffProper py scorer d item ranked
  else if isNameGloss py.toPyText ranked.topGloss then anchorOffName py scorer d item ranked
  else anchorInPlace ranked

/-! ## What the verdict is about -/

def AnchorProbe.candidate (probe : AnchorProbe F) (t : ScoredSense F) : AnchorTop :=
  ⟨⟨probe.word, t.index⟩, t.gloss⟩

def senseTags (t : ScoredSense F) : List String := normalizeTags py t.sense.tags

/-- A cross-reference to no sense, in the parts of speech of the item. -/
def isUnresolvableXref (gloss : String) : Bool :=
  (detectXref py.toPyText gloss).any fun target =>
    (resolveXrefAnchor py scorer d target (anchorRows py scorer d item).2).isNone

/-- A sense that may stay the top. -/
structure IsFit (t : ScoredSense F) : Prop where
  pos : isProper (entryPosText py t.entry) = false
  name : isNameGloss py.toPyText t.gloss = false
  xref : isUnresolvableXref py scorer d item t.gloss = false
  tags : isVulgar (senseTags py t) = false

/-- A kept item has a top that may stay, and one dropped as vulgar has a vulgar top. -/
structure VerdictAboutTop (probe : AnchorProbe F) (view : AnchorView) : Prop where
  kept : view.dropped = none → ∀ t ∈ probe.window, view.ranked.top = some (probe.candidate t) →
    IsFit py scorer d item t
  vulgar : view.dropped = some .vulgarAnchor → ∃ t ∈ probe.window,
    view.ranked.top = some (probe.candidate t) ∧ isVulgar (senseTags py t) = true

/-- Every lookup of a sense of the window finds that sense. -/
def LookupsSucceed (probe : AnchorProbe F) : Prop :=
  ∀ t ∈ probe.window, (windowSense py scorer d item (probe.candidate t).id).map
    (fun u => (u.entry, u.sense)) = some (t.entry, t.sense)

/-! ## When the verdict is about the top -/

/-- What a reroute needs of its target: tags of its own, where those of the sense it leaves
are vulgar, and, where its own are not, a gloss that is a definition. -/
def TargetFits (ranked : Ranked) (t : ScoredSense F) : Prop :=
  (senseTags py t ≠ [] ∨ isVulgar ranked.anchorTags = false) ∧
    (isVulgar (senseTags py t) = true ∨ isNameGloss py.toPyText t.gloss = false ∧
      isUnresolvableXref py scorer d item t.gloss = false)

def offProperTarget (t : ScoredSense F) : Bool :=
  entryPosText py t.entry ≠ "" && !isProper (entryPosText py t.entry)

def offNameTarget (t : ScoredSense F) : Bool :=
  !isNameGloss py.toPyText t.gloss && !isProper (entryPosText py t.entry)

def BeginsWithAnchor (probe : AnchorProbe F) : Prop :=
  ∃ t ∈ probe.window.head?, ∃ p ∈ probe.pick, p = pickOf p.id.word t

/-- What the verdict needs without a reroute. -/
def FitsInPlace (probe : AnchorProbe F) (ranked : Ranked) : Prop :=
  BeginsWithAnchor probe ∨
    if isVulgar ranked.anchorTags then ∃ t ∈ probe.window.head?, isVulgar (senseTags py t) = true
    else ranked.xrefUnresolvable = true ∨ ∀ t ∈ probe.window.head?, IsFit py scorer d item t

/-- What the verdict needs to be about the top. -/
def VerdictFits (probe : AnchorProbe F) (ranked : Ranked) : Prop :=
  if isProper ranked.anchorPos then
    ∀ t ∈ probe.window.find? (offProperTarget py), TargetFits py scorer d item ranked t
  else if isNameGloss py.toPyText ranked.topGloss then
    ∀ t ∈ probe.window.find? (offNameTarget py), TargetFits py scorer d item ranked t
  else FitsInPlace py scorer d item probe ranked

end Verdict

section Proofs
variable {py : GlossText} {F : Type} {scorer : Scorer F} {d : Dictionary} {item : AnchorItem}

theorem AnchorProbe.candidates_eq (probe : AnchorProbe F) :
    probe.candidates = probe.window.map probe.candidate := rfl

/-! ## The lookups -/

theorem exists_windowSense {probe : AnchorProbe F} (h : LookupsSucceed py scorer d item probe)
    {t : ScoredSense F} (ht : t ∈ probe.window) :
    ∃ u, windowSense py scorer d item (probe.candidate t).id = some u ∧
      u.entry = t.entry ∧ u.sense = t.sense := by
  obtain ⟨u, hu, heq⟩ := Option.map_eq_some_iff.mp (h t ht)
  exact ⟨u, hu, congrArg Prod.fst heq, congrArg Prod.snd heq⟩

theorem pickedEntryPos_candidate {probe : AnchorProbe F}
    (h : LookupsSucceed py scorer d item probe) {t : ScoredSense F} (ht : t ∈ probe.window) :
    pickedEntryPos py scorer d item (probe.candidate t).id = entryPosText py t.entry := by
  obtain ⟨u, hu, hentry, -⟩ := exists_windowSense h ht
  rw [pickedEntryPos, hu, Option.map_some, Option.getD_some, hentry]

theorem targetSenseTags_candidate {probe : AnchorProbe F}
    (h : LookupsSucceed py scorer d item probe) {t : ScoredSense F} (ht : t ∈ probe.window) :
    targetSenseTags py scorer d item (probe.candidate t).id = senseTags py t := by
  obtain ⟨u, hu, -, hsense⟩ := exists_windowSense h ht
  rw [targetSenseTags, hu, Option.map_some, Option.getD_some, hsense, senseTags]

theorem find?_candidates {probe : AnchorProbe F} {p : AnchorTop → Bool} {q : ScoredSense F → Bool}
    (h : ∀ t ∈ probe.window, p (probe.candidate t) = q t) :
    probe.candidates.find? p = (probe.window.find? q).map probe.candidate := by
  have hfilter : probe.window.filter (p ∘ probe.candidate) = probe.window.filter q :=
    List.filter_congr h
  rw [AnchorProbe.candidates_eq, List.find?_map, ← List.head?_filter, hfilter, List.head?_filter]

theorem rerouteProperAnchor_eq {probe : AnchorProbe F} (h : LookupsSucceed py scorer d item probe)
    {ranked : Ranked} (hcands : ranked.candidates = probe.candidates) :
    rerouteProperAnchor py scorer d item ranked =
      (probe.window.find? (offProperTarget py)).map fun t =>
        (probe.candidate t, entryPosText py t.entry) := by
  rw [rerouteProperAnchor, hcands, find?_candidates (q := offProperTarget py) fun t ht => by
    rw [pickedEntryPos_candidate h ht, offProperTarget], Option.map_map]
  refine Option.map_congr fun t ht => ?_
  rw [Function.comp_apply, pickedEntryPos_candidate h (List.mem_of_find?_eq_some ht)]

theorem rerouteNameGlossAnchor_eq {probe : AnchorProbe F}
    (h : LookupsSucceed py scorer d item probe) {ranked : Ranked}
    (hcands : ranked.candidates = probe.candidates)
    (hname : isNameGloss py.toPyText ranked.topGloss = true) :
    rerouteNameGlossAnchor py scorer d item ranked =
      (probe.window.find? (offNameTarget py)).map fun t =>
        (probe.candidate t, entryPosText py t.entry) := by
  rw [rerouteNameGlossAnchor, hname, if_neg (by decide), hcands,
    find?_candidates (q := offNameTarget py) fun t ht => by
      rw [pickedEntryPos_candidate h ht, offNameTarget, AnchorProbe.candidate], Option.map_map]
  refine Option.map_congr fun t ht => ?_
  rw [Function.comp_apply, pickedEntryPos_candidate h (List.mem_of_find?_eq_some ht)]

/-! ## The branches -/

/-- Candidates of different senses differ. -/
def DistinctIndexes (probe : AnchorProbe F) : Prop :=
  ∀ t ∈ probe.window, ∀ u ∈ probe.window, t.index = u.index → t = u

theorem candidate_inj {probe : AnchorProbe F} (h : DistinctIndexes probe) {t u : ScoredSense F}
    (ht : t ∈ probe.window) (hu : u ∈ probe.window)
    (heq : some (probe.candidate t) = some (probe.candidate u)) : t = u :=
  h t ht u hu (congrArg (fun top : AnchorTop => top.id.index) (Option.some.inj heq))

theorem verdictAboutTop_iff {probe : AnchorProbe F} (hinj : DistinctIndexes probe)
    {view : AnchorView} {t : ScoredSense F} (ht : t ∈ probe.window)
    (htop : view.ranked.top = some (probe.candidate t)) :
    VerdictAboutTop py scorer d item probe view ↔
      (view.dropped = none → IsFit py scorer d item t) ∧
        (view.dropped = some .vulgarAnchor → isVulgar (senseTags py t) = true) := by
  constructor
  · intro h
    refine ⟨fun hkept => h.kept hkept t ht htop, fun hdrop => ?_⟩
    obtain ⟨u, hu, hutop, hvulgar⟩ := h.vulgar hdrop
    rwa [candidate_inj hinj ht hu (htop.symm.trans hutop)]
  · rintro ⟨hkept, hvulgar⟩
    refine ⟨fun hnone u hu hutop => ?_, fun hdrop => ⟨t, ht, htop, hvulgar hdrop⟩⟩
    rw [← candidate_inj hinj ht hu (htop.symm.trans hutop)]
    exact hkept hnone

theorem isVulgar_nil : isVulgar [] = false := rfl

theorem verdictAboutTop_reroute {probe : AnchorProbe F} (hinj : DistinctIndexes probe)
    (hlook : LookupsSucceed py scorer d item probe) {ranked : Ranked} {t : ScoredSense F}
    (ht : t ∈ probe.window) (hpos : isProper (entryPosText py t.entry) = false) {pos : String}
    {view : AnchorView}
    (hranked : view.ranked = rerouteTo py scorer d item ranked (probe.candidate t) pos)
    (hdrop : view.dropped =
      if isVulgar view.ranked.anchorTags then some .vulgarAnchor else none) :
    VerdictAboutTop py scorer d item probe view ↔ TargetFits py scorer d item ranked t := by
  have htop : view.ranked.top = some (probe.candidate t) := by rw [hranked]; rfl
  have htags : view.ranked.anchorTags =
      if senseTags py t = [] then ranked.anchorTags else senseTags py t := by
    rw [hranked, rerouteTo, targetSenseTags_candidate hlook ht]
  rw [verdictAboutTop_iff hinj ht htop, hdrop, htags, TargetFits]
  by_cases hown : senseTags py t = []
  · -- the target has no tags: those of the sense that was left decide
    rw [if_pos hown, hown, isVulgar_nil]
    cases hold : isVulgar ranked.anchorTags with
    | true => simp
    | false =>
      simp only [Bool.false_eq_true, if_false, forall_const, reduceCtorEq, false_imp_iff, and_true,
        or_true, true_and, false_or]
      exact ⟨fun fit => ⟨fit.name, fit.xref⟩,
        fun ⟨hname, hxref⟩ => ⟨hpos, hname, hxref, by rw [hown, isVulgar_nil]⟩⟩
  · rw [if_neg hown]
    cases hvulgar : isVulgar (senseTags py t) with
    | true => simp [hown]
    | false =>
      simp only [Bool.false_eq_true, if_false, forall_const, reduceCtorEq, false_imp_iff, and_true,
        false_or, ne_eq, hown, not_false_eq_true, true_or, true_and]
      exact ⟨fun fit => ⟨fit.name, fit.xref⟩,
        fun ⟨hname, hxref⟩ => ⟨hpos, hname, hxref, hvulgar⟩⟩

theorem verdictAboutTop_anchorOffProper {probe : AnchorProbe F} (hinj : DistinctIndexes probe)
    (hlook : LookupsSucceed py scorer d item probe) {ranked : Ranked}
    (hcands : ranked.candidates = probe.candidates) :
    VerdictAboutTop py scorer d item probe (anchorOffProper py scorer d item ranked) ↔
      ∀ t ∈ probe.window.find? (offProperTarget py), TargetFits py scorer d item ranked t := by
  rw [anchorOffProper, rerouteProperAnchor_eq hlook hcands]
  cases hfind : probe.window.find? (offProperTarget py) with
  | none =>
    -- dropped as a proper noun, of which the verdict says nothing
    exact iff_of_true ⟨nofun, nofun⟩ nofun
  | some t =>
    have htarget : offProperTarget py t = true := List.find?_some hfind
    rw [offProperTarget, Bool.and_eq_true, Bool.not_eq_true'] at htarget
    simp only [Option.map_some, Option.mem_some_iff, forall_eq']
    exact verdictAboutTop_reroute hinj hlook (List.mem_of_find?_eq_some hfind) htarget.2 rfl rfl

theorem verdictAboutTop_anchorOffName {probe : AnchorProbe F} (hinj : DistinctIndexes probe)
    (hlook : LookupsSucceed py scorer d item probe) {ranked : Ranked}
    (hcands : ranked.candidates = probe.candidates)
    (hname : isNameGloss py.toPyText ranked.topGloss = true) :
    VerdictAboutTop py scorer d item probe (anchorOffName py scorer d item ranked) ↔
      ∀ t ∈ probe.window.find? (offNameTarget py), TargetFits py scorer d item ranked t := by
  rw [anchorOffName, rerouteNameGlossAnchor_eq hlook hcands hname]
  cases hfind : probe.window.find? (offNameTarget py) with
  | none => exact iff_of_true ⟨nofun, nofun⟩ nofun
  | some t =>
    have htarget : offNameTarget py t = true := List.find?_some hfind
    rw [offNameTarget, Bool.and_eq_true, Bool.not_eq_true', Bool.not_eq_true'] at htarget
    simp only [Option.map_some, Option.mem_some_iff, forall_eq']
    split
    · rename_i hvulgar
      exact verdictAboutTop_reroute hinj hlook (List.mem_of_find?_eq_some hfind) htarget.2 rfl
        (if_pos hvulgar).symm
    · rename_i hvulgar
      exact verdictAboutTop_reroute hinj hlook (List.mem_of_find?_eq_some hfind) htarget.2 rfl
        (if_neg hvulgar).symm

/-- What a ranked entry says of the sense that anchors it. -/
structure RanksAnchor (py : GlossText) (probe : AnchorProbe F) (ranked : Ranked) : Prop where
  candidates : ranked.candidates = probe.candidates
  top : ranked.top = probe.candidates.head?
  tags : ∀ p ∈ probe.pick, ranked.anchorTags = normalizeTags py p.sense.tags
  pos : ∀ p ∈ probe.pick, isProper ranked.anchorPos = false →
    isProper (entryPosText py p.entry) = false
  xref : ∀ p ∈ probe.pick, ranked.xrefUnresolvable = false → detectXref py.toPyText p.gloss = none

theorem isUnresolvableXref_of_none {gloss : String} (h : detectXref py.toPyText gloss = none) :
    isUnresolvableXref py scorer d item gloss = false := by
  rw [isUnresolvableXref, h]
  rfl

/-- Without a reroute the verdict is about the anchored sense, and about the top only where
the top is that sense or the two agree. -/
theorem verdictAboutTop_anchorInPlace {probe : AnchorProbe F} (hinj : DistinctIndexes probe)
    {ranked : Ranked} (hranks : RanksAnchor py probe ranked)
    (hproper : isProper ranked.anchorPos = false)
    (hname : isNameGloss py.toPyText ranked.topGloss = false) :
    VerdictAboutTop py scorer d item probe (anchorInPlace ranked) ↔
      FitsInPlace py scorer d item probe ranked := by
  have htop := hranks.top
  rw [AnchorProbe.candidates_eq, List.head?_map] at htop
  cases hhead : probe.window.head? with
  | none =>
    have hnil : probe.window = [] := List.head?_eq_none_iff.mp hhead
    have hno : ¬ BeginsWithAnchor probe := by
      rintro ⟨t, ht, -⟩
      rw [hhead] at ht
      cases ht
    rw [FitsInPlace, or_iff_right hno, hhead, anchorInPlace]
    split
    · refine iff_of_false (fun h => ?_) (fun ⟨t, ht, _⟩ => nomatch ht)
      obtain ⟨t, ht, -⟩ := h.vulgar rfl
      rw [hnil] at ht
      cases ht
    · refine iff_of_true ⟨fun _ t ht => ?_, fun hdrop => ?_⟩ (.inr nofun)
      · rw [hnil] at ht
        cases ht
      · split at hdrop <;> cases hdrop
  | some t =>
    have ht : t ∈ probe.window := List.mem_of_head? hhead
    rw [hhead, Option.map_some] at htop
    have hgloss : isNameGloss py.toPyText t.gloss = false := by
      rwa [Ranked.topGloss, htop] at hname
    have hview : (anchorInPlace ranked).ranked = ranked := by
      unfold anchorInPlace
      split
      · rfl
      · split <;> rfl
    rw [verdictAboutTop_iff hinj ht (by rw [hview, htop]), FitsInPlace, hhead]
    simp only [Option.mem_some_iff, exists_eq_left', forall_eq']
    -- of the anchored sense the branches are right
    have hanchored : BeginsWithAnchor probe →
        isVulgar (senseTags py t) = isVulgar ranked.anchorTags ∧
          isProper (entryPosText py t.entry) = false ∧
          (ranked.xrefUnresolvable = false →
            isUnresolvableXref py scorer d item t.gloss = false) := by
      rintro ⟨u, hu, p, hp, heq⟩
      obtain rfl : t = u := Option.some.inj (hhead.symm.trans hu)
      have hsense : p.sense = t.sense := congrArg AnchorPick.sense heq
      have hentry : p.entry = t.entry := congrArg AnchorPick.entry heq
      have hglosses : p.gloss = t.gloss := congrArg AnchorPick.gloss heq
      refine ⟨by rw [hranks.tags p hp, hsense, senseTags], hentry ▸ hranks.pos p hp hproper, ?_⟩
      exact fun hflag => isUnresolvableXref_of_none (hglosses ▸ hranks.xref p hp hflag)
    unfold anchorInPlace
    cases hvulgar : isVulgar ranked.anchorTags with
    | true =>
      simp only [if_true, reduceCtorEq, false_imp_iff, true_and, true_imp_iff]
      exact ⟨.inr, fun h => h.elim (fun hb => (hanchored hb).1.trans hvulgar) id⟩
    | false =>
      cases hflag : ranked.xrefUnresolvable with
      | true =>
        simp
      | false =>
        simp only [Bool.false_eq_true, if_false, true_imp_iff, reduceCtorEq, false_imp_iff, and_true,
          false_or]
        refine ⟨.inr, fun h => h.elim (fun hb => ?_) id⟩
        obtain ⟨htags, hpos, hxref⟩ := hanchored hb
        exact ⟨hpos, hgloss, hxref hflag, htags.trans hvulgar⟩

/-! ## The ranked entry of an item -/

theorem distinctIndexes_topSenseCandidates {text : String} {rows : List IndexRow}
    {pool : List String} {level : String} {t u : ScoredSense F}
    (ht : t ∈ topSenseCandidates py scorer d text rows pool level)
    (hu : u ∈ topSenseCandidates py scorer d text rows pool level) (heq : t.index = u.index) :
    t = u := by
  have hperm : (scoreSenses py scorer d text rows pool).Perm
      (scoredInFileOrder py scorer d text rows pool) := scorer.sort_perm _ _
  have hnodup : ((scoreSenses py scorer d text rows pool).map (·.index)).Nodup :=
    (hperm.map _).nodup_iff.mpr (nodup_scoredInFileOrder _ _ _)
  have hmem : ∀ t ∈ topSenseCandidates py scorer d text rows pool level,
      t ∈ scoreSenses py scorer d text rows pool := fun t ht =>
    (liveSenses_sublist _).subset (mem_of_mem_selectCandidateWindow hnodup ht)
  exact List.inj_on_of_nodup_map hnodup (hmem t ht) (hmem u hu) heq

theorem distinctIndexes_anchorItemEn : DistinctIndexes (anchorItemEn py scorer d item) := by
  intro t ht u hu heq
  unfold anchorItemEn at ht hu
  dsimp only at ht hu
  split at ht
  · rw [if_pos ‹_›] at hu
    exact distinctIndexes_topSenseCandidates ht hu heq
  · rw [if_neg ‹_›] at hu
    exact distinctIndexes_topSenseCandidates ht hu heq

theorem detectXref_of_resolveXrefAnchor {target : String} {pool : List String} {p : AnchorPick}
    (h : resolveXrefAnchor py scorer d target pool = some p) :
    detectXref py.toPyText p.gloss = none := by
  unfold resolveXrefAnchor at h
  dsimp only at h
  split at h
  · cases h
  · split at h
    · cases h
    · split at h
      · cases h
      · rename_i hnone
        obtain rfl := Option.some.inj h
        exact Option.not_isSome_iff_eq_none.mp hnone

theorem word_of_pickAnchorSenseFull {text : String} {rows : List IndexRow} {pool : List String}
    {p : AnchorPick} (h : pickAnchorSenseFull py scorer d true text rows pool = some p)
    (hxref : detectXref py.toPyText p.gloss ≠ none) : p.id.word = wordKey py text := by
  rw [pickAnchorSenseFull] at h
  obtain ⟨t, -, rfl⟩ := Option.map_eq_some_iff.mp h
  rw [if_pos rfl] at hxref ⊢
  cases hdetect : detectXref py.toPyText t.gloss with
  | none => rfl
  | some target =>
    cases hresolve : resolveXrefAnchor py scorer d target pool with
    | none =>
      simp only [hresolve]
      rfl
    | some q =>
      rw [hdetect] at hxref
      simp only [hresolve, Option.getD_some] at hxref
      exact absurd (detectXref_of_resolveXrefAnchor hresolve) hxref

theorem detectXref_pick (hflag : (anchorItemEn py scorer d item).xrefUnresolvable = false)
    {p : AnchorPick} (hp : p ∈ (anchorItemEn py scorer d item).pick) :
    detectXref py.toPyText p.gloss = none := by
  by_contra hxref
  unfold anchorItemEn at hp hflag
  dsimp only at hp hflag
  split at hp
  · rename_i hresolved
    dsimp only at hp
    rw [hp] at hresolved
    have hword := word_of_pickAnchorSenseFull hp hxref
    rw [wordKey_strip] at hword
    exact hresolved.2 hword
  · rw [if_neg ‹_›] at hflag
    dsimp only at hp hflag
    rw [hp] at hflag
    exact hxref (Option.not_isSome_iff_eq_none.mp (Bool.eq_false_iff.mp hflag))

theorem ranksAnchor_anchorRankItem :
    RanksAnchor py (anchorItemEn py scorer d item) (anchorRankItem py scorer d item) where
  candidates := rfl
  top := rfl
  tags p hp := by
    rw [anchorRankItem, hp]
    rfl
  pos p hp hproper := by
    rw [anchorRankItem, hp] at hproper
    dsimp only at hproper
    split at hproper
    · rename_i hempty
      have hpos : entryPosText py p.entry = "" := hempty
      rw [hpos]
      rfl
    · exact hproper
  xref p hp hflag := detectXref_pick hflag hp

/-- **The verdict of an item is about its final top exactly when the sense it is rerouted to
has tags of its own and a definition for its gloss, where there is one, and the window
begins with the anchored sense or with one that agrees with it, where there is none.** -/
theorem verdict_about_top_iff
    (h : LookupsSucceed py scorer d item (anchorItemEn py scorer d item)) :
    VerdictAboutTop py scorer d item (anchorItemEn py scorer d item) (anchor py scorer d item) ↔
      VerdictFits py scorer d item (anchorItemEn py scorer d item)
        (anchorRankItem py scorer d item) := by
  have hinj : DistinctIndexes (anchorItemEn py scorer d item) := distinctIndexes_anchorItemEn
  have hranks : RanksAnchor py (anchorItemEn py scorer d item) (anchorRankItem py scorer d item) :=
    ranksAnchor_anchorRankItem
  rw [anchor, VerdictFits]
  by_cases hproper : isProper (anchorRankItem py scorer d item).anchorPos = true
  · rw [if_pos hproper, if_pos hproper]
    exact verdictAboutTop_anchorOffProper hinj h hranks.candidates
  · rw [if_neg hproper, if_neg hproper]
    by_cases hname : isNameGloss py.toPyText (anchorRankItem py scorer d item).topGloss = true
    · rw [if_pos hname, if_pos hname]
      exact verdictAboutTop_anchorOffName hinj h hranks.candidates hname
    · rw [if_neg hname, if_neg hname]
      exact verdictAboutTop_anchorInPlace hinj hranks (Bool.eq_false_iff.mpr hproper)
        (Bool.eq_false_iff.mpr hname)

end Proofs

/-- A byname that is a slur, and behind it a noun with these tags. -/
def cracker (tags : List String) : Dictionary where
  index key := if key = "cracker" then some [⟨"name", 0⟩, ⟨"noun", 1⟩] else none
  read row :=
    if row.place = 0 then
      some ⟨"name", [⟨["A byname for the people of a region."], ["slur"], [], [], []⟩]⟩
    else some ⟨"noun", [⟨["A thin crisp biscuit."], tags, [], [], []⟩]⟩

theorem tagged_verdict_about_top_iff :
    VerdictAboutTop .ascii tenThousandths (cracker ["countable"]) (nounItem "cracker")
        (anchorItemEn .ascii tenThousandths (cracker ["countable"]) (nounItem "cracker"))
        (anchor .ascii tenThousandths (cracker ["countable"]) (nounItem "cracker")) ↔
      VerdictFits .ascii tenThousandths (cracker ["countable"]) (nounItem "cracker")
        (anchorItemEn .ascii tenThousandths (cracker ["countable"]) (nounItem "cracker"))
        (anchorRankItem .ascii tenThousandths (cracker ["countable"]) (nounItem "cracker")) :=
  verdict_about_top_iff (by unfold LookupsSucceed; decide +kernel)

/-- The noun has no tags, and is dropped for those of the byname. -/
theorem untagged_target_is_dropped :
    LookupsSucceed .ascii tenThousandths (cracker []) (nounItem "cracker")
        (anchorItemEn .ascii tenThousandths (cracker []) (nounItem "cracker")) ∧
      (anchor .ascii tenThousandths (cracker []) (nounItem "cracker")).ranked.top =
        some ⟨⟨"cracker", 1⟩, "A thin crisp biscuit."⟩ ∧
      (anchor .ascii tenThousandths (cracker []) (nounItem "cracker")).dropped =
        some .vulgarAnchor ∧
      ¬ VerdictAboutTop .ascii tenThousandths (cracker []) (nounItem "cracker")
        (anchorItemEn .ascii tenThousandths (cracker []) (nounItem "cracker"))
        (anchor .ascii tenThousandths (cracker []) (nounItem "cracker")) := by
  have hdropped : (anchor .ascii tenThousandths (cracker []) (nounItem "cracker")).dropped =
      some .vulgarAnchor := by decide +kernel
  have htop : ∀ t ∈ (anchorItemEn .ascii tenThousandths (cracker []) (nounItem "cracker")).window,
      (anchor .ascii tenThousandths (cracker []) (nounItem "cracker")).ranked.top =
        some ((anchorItemEn .ascii tenThousandths (cracker []) (nounItem "cracker")).candidate t) →
      isVulgar (senseTags .ascii t) = false := by decide +kernel
  refine ⟨by unfold LookupsSucceed; decide +kernel, by decide +kernel, hdropped, fun h => ?_⟩
  obtain ⟨t, ht, heq, hvulgar⟩ := h.vulgar hdropped
  rw [htop t ht heq] at hvulgar
  cases hvulgar

end HamZaboon
